import ChainAlerter.Proofs.World

/-!
# `ChainAlerter.Proofs.Agreement`: the listener ends where the node is

Within one subscription the node queues a notification for every import. The
listener takes them one at a time, and checks each block against the node's
chain of that moment, not of the import. `Subscribed.Agreed` is the invariant of
all interleavings: the world tracks, and the tracker, the queue and the node
agree. `agreement_at_quiescence` is its consequence for an idle listener with an
empty queue.
-/

set_option autoImplicit false

namespace ChainAlerter

open ChainAlerter.Library
open ChainAlerter.Abstract

variable {env : Externals} {T : BlockTree env}

namespace Subscribed

/-- The listener tracks, and its tracker agrees with the node and the queue. -/
def Agreed (w : Subscribed T) : Prop :=
  ∃ s, w.world.Tracks s ∧ Agrees w.world.node w.queue s

/-- A new subscription: the listener holds nothing, and the queue is empty or starts
with the best block. -/
theorem agreed_of_initial {w : Subscribed T} (h : w.Initial) : w.Agreed := by
  obtain ⟨⟨node, cache, sent, phase⟩, queue⟩ := w
  obtain ⟨hphase, hcache, hqueue⟩ := h
  cases hphase
  refine ⟨.waiting, ⟨fun hash header hl => ?_, .loadNext⟩, ?_⟩
  · obtain ⟨b, hb, hhash, hheader⟩ := hcache hash header hl
    exact ⟨b, hb, hhash, hheader⟩
  · rcases hqueue with hnil | hbest
    · -- Nothing is ahead, and nothing of the best chain is.
      cases hnil
      exact ⟨by simp, by simp [Tracker.holds], List.Pairwise.nil, by simp, Or.inr (by simp)⟩
    · have hsingle : queue = [node.best] := hbest
      subst hsingle
      refine ⟨?_, by simp [Tracker.holds], List.pairwise_singleton _ _, by simp [Tracker.holds],
        Or.inl List.mem_cons_self⟩
      intro n hn
      rw [List.mem_singleton.mp hn]
      exact node.best_mem

/-- Every step of a subscription keeps the agreement: an import, a notification taken
from the queue, or an answer of the node. -/
theorem step_agreed (hlaw : env.Lawful T) {w w' : Subscribed T} {e : SubscribedEvent T}
    (h : w.Agreed) (hstep : w.step e = some w') : w'.Agreed := by
  obtain ⟨s, htracks, hagrees⟩ := h
  cases step_moves hlaw htracks hstep with
  | imports b newBest he hadd hlistener htracks' hqueue =>
      refine ⟨s, htracks', ?_⟩
      rw [hqueue]
      exact hagrees.add hadd
  | receives b hqueue hnode move s' htstep htracks' =>
      refine ⟨s', htracks', ?_⟩
      rw [hqueue] at hagrees
      rw [hnode]
      exact hagrees.receive htstep
  | answers he hqueue hnode act move s' hact htstep htracks' =>
      refine ⟨s', htracks', ?_⟩
      rw [hqueue, hnode]
      exact hagrees.answer hact htstep

/-- The agreement holds in every state of a run from a new subscription. It holds at its
start, and `step_agreed` carries it over every import and every step of the listener. -/
theorem run_agreed (hlaw : env.Lawful T) {w₀ w : Subscribed T}
    {events : List (SubscribedEvent T)} (hinit : w₀.Initial)
    (hrun : run Subscribed.step w₀ events = some w) : w.Agreed :=
  run_invariant (fun _ _ _ h hstep => step_agreed hlaw h hstep) events w₀ w
    (agreed_of_initial hinit) hrun

end Subscribed

/-- Agreement at quiescence. In every state that a subscription can reach, by any
interleaving of imports with the steps of the listener, an idle listener with an empty
queue has the node's best block as its current best block. -/
theorem agreement_at_quiescence (hlaw : env.Lawful T) {w₀ w : Subscribed T}
    {events : List (SubscribedEvent T)} (hinit : w₀.Initial)
    (hrun : run Subscribed.step w₀ events = some w) {best : HashAndNumber}
    (hidle : w.world.listener.phase = .listenNext best) (hqueue : w.queue = []) :
    best = w.world.node.best.hashAndNumber := by
  obtain ⟨s, htracks, hagrees⟩ := Subscribed.run_agreed hlaw hinit hrun
  have hshows := htracks.phase
  rw [hidle] at hshows
  cases hshows with
  | listenNext a ha =>
      rw [hqueue] at hagrees
      rw [hagrees.eq_best]

/-! ### A subscription on a fork -/

/-- A new subscription to the node at `2`, which starts with its best block. -/
def forkSubscribed : Subscribed forkTree where
  world := { node := forkNode, listener := { Listener.init with phase := .loadNext } }
  queue := [forkBlock 2]

/-- The listener of the fork has just subscribed at the node's best block. -/
theorem forkSubscribed_initial : forkSubscribed.Initial := by
  refine ⟨rfl, fun hash header h => ?_, Or.inr rfl⟩
  simp [forkSubscribed, Listener.init, HeadersMetadataCache.empty] at h

/-- The listener starts at `2`: the notification, the canonical check, the header of
`2`, and the two requests of the header load. -/
def startEvents : List (SubscribedEvent forkTree) :=
  [.next, .answer, .answer, .answerSlot 0, .answerSlot 1, .answerSlot 1, .answerSlot 0]

/-- The node imports `3`, and then reorgs to the other fork, between the notification of
`3` and its canonical check. The listener skips `3`, and takes `4` and `6`. -/
def lateEvents : List (SubscribedEvent forkTree) :=
  startEvents ++
    [.importBlock (forkBlock 3) true, .next, .importBlock (forkBlock 4) false,
     .importBlock (forkBlock 6) true, .answer, .next, .answer, .next, .answer]

/-- Blocks are imported while the listener is at work. When it is idle again with
nothing left to receive, it is at the node's best block. -/
theorem agreement_at_quiescence_late :
    ∃ w, run Subscribed.step forkSubscribed lateEvents = some w ∧
      w.world.listener.phase = .listenNext (forkBlock 6).hashAndNumber ∧
      (forkBlock 6).hashAndNumber = w.world.node.best.hashAndNumber := by
  obtain ⟨w, hrun⟩ : ∃ w, run Subscribed.step forkSubscribed lateEvents = some w := ⟨_, rfl⟩
  have hidle : w.world.listener.phase = .listenNext (forkBlock 6).hashAndNumber := by
    cases hrun
    rfl
  have hqueue : w.queue = [] := by
    cases hrun
    rfl
  exact ⟨w, hrun, hidle,
    agreement_at_quiescence forkTree_lawful forkSubscribed_initial hrun hidle hqueue⟩

end ChainAlerter
