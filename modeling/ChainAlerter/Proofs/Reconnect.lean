import ChainAlerter.Proofs.Agreement
import ChainAlerter.Proofs.Broadcast

/-!
# `ChainAlerter.Proofs.Reconnect`: lost connections and what they leave out

`listen_for_all_blocks` goes round its loop when `listen_for_blocks` returns
`Error::Rpc`. The errors of the RPC handle are that error, those of the
subscription are `Error::Subxt`, and the `?` of `subscribe_all` and of
`load_header_metadata_cache` return before the test. So a lost connection leads
to a new subscription from two waits only, `Phase.reconnects`
(`lost_connections_resubscribe_iff`).

A new session takes its current best block from the new subscription, and sends
nothing between the old one and it. `Chronicle` is a world that remembers the
current best blocks of all its sessions, and `best_chain_sent_iff` says when a run
with any lost connections has sent every block of the best chain.
-/

set_option autoImplicit false

namespace ChainAlerter

open ChainAlerter.Library
open ChainAlerter.Abstract

variable {env : Externals} {T : BlockTree env}

/-! ### Which lost connections lead to a new subscription -/

/-- The waits of `listen_for_blocks` on the RPC handle. -/
def Phase.reconnects : Phase → Bool
  | .listenCanonical _ _ => true
  | .listenRoute _ _ _ => true
  | _ => false

/-- The listener has returned, or a request of its header load has failed. -/
def Phase.Doomed : Phase → Prop
  | .returned _ => True
  | .loadRange _ slots => ∃ err, LoadSlot.done (.error err) ∈ slots
  | _ => False

/-- With a failed request, `try_collect` never hands over. It waits for the requests
before the failed one, and then gives its error. -/
theorem tryCollect_of_failed {slots : List LoadSlot} {err : Error}
    (h : LoadSlot.done (.error err) ∈ slots) (headers : List Header) :
    tryCollect slots ≠ some (.ok headers) := by
  induction slots generalizing headers with
  | nil => cases h
  | cons slot slots ih =>
      cases slot with
      | blockHash => simp [tryCollect]
      | header => simp [tryCollect]
      | done result =>
          cases result with
          | error => simp [tryCollect]
          | ok header =>
              have hrest : LoadSlot.done (.error err) ∈ slots := by simpa using h
              intro hcollect
              simp only [tryCollect, Option.map_eq_some_iff] at hcollect
              obtain ⟨rest, hrest', hmap⟩ := hcollect
              cases rest with
              | error => cases hmap
              | ok headers' => exact ih hrest headers' hrest'

/-- The header load with a failed request waits on, or fails. In neither case it comes
to a listening phase. -/
theorem loadProgress_doomed (l : Listener) (latest : HashAndNumber) {slots : List LoadSlot}
    {err : Error} (h : LoadSlot.done (.error err) ∈ slots) :
    (l.loadProgress env latest slots).phase.Doomed := by
  unfold Listener.loadProgress
  cases hcollect : tryCollect slots with
  | none => exact ⟨err, h⟩
  | some result =>
      cases result with
      | error => trivial
      | ok headers => exact absurd hcollect (tryCollect_of_failed h headers)

/-- What an answer to a request of the header load does to the requests. -/
theorem answerSlot_eq_some {l l' : Listener} {latest : HashAndNumber} {slots : List LoadSlot}
    {slot : Nat} {answer : LoadSlot → Option LoadSlot}
    (h : l.answerSlot env latest slots slot answer = some l') :
    ∃ request request', slots[slot]? = some request ∧ answer request = some request' ∧
      l' = l.loadProgress env latest (slots.set slot request') := by
  unfold Listener.answerSlot at h
  simp only [Option.bind_eq_bind, Option.bind_eq_some_iff, Option.pure_def,
    Option.some.injEq] at h
  obtain ⟨-, -, request, hrequest, request', hanswer, rfl⟩ := h
  exact ⟨request, request', hrequest, hanswer, rfl⟩

/-- A failed request is never answered again, so it stays. -/
theorem answerSlot_doomed {l l' : Listener} {latest : HashAndNumber} {slots : List LoadSlot}
    {slot : Nat} {answer : LoadSlot → Option LoadSlot} {err : Error}
    (hdone : ∀ result, answer (.done result) = none)
    (hfailed : LoadSlot.done (.error err) ∈ slots)
    (h : l.answerSlot env latest slots slot answer = some l') : l'.phase.Doomed := by
  obtain ⟨request, request', hrequest, hanswer, rfl⟩ := answerSlot_eq_some h
  -- The answered request is another one, since a failed request takes no answer.
  obtain ⟨i, hi⟩ := List.mem_iff_getElem?.mp hfailed
  have hne : slot ≠ i := by
    rintro rfl
    rw [hi, Option.some.injEq] at hrequest
    rw [← hrequest, hdone] at hanswer
    cases hanswer
  have hstays : (slots.set slot request')[i]? = some (.done (.error err)) := by
    rw [List.getElem?_set_ne hne, hi]
  exact loadProgress_doomed l latest (List.mem_of_getElem? hstays)

/-- No reply saves a doomed listener. It has returned, or waits in a load with a failed
request, which no reply can repair. -/
theorem step_doomed {l l' : Listener} {reply : Reply} (h : l.phase.Doomed)
    (hstep : l.step env reply = some l') : l'.phase.Doomed := by
  obtain ⟨cache, sent, phase⟩ := l
  cases phase with
  | returned err => cases hstep
  | loadRange latest slots =>
      obtain ⟨err, hfailed⟩ := h
      cases reply with
      | slotBlockHash slot answer => exact answerSlot_doomed (fun _ => rfl) hfailed hstep
      | slotHeader slot answer => exact answerSlot_doomed (fun _ => rfl) hfailed hstep
      | _ => cases hstep
  | _ => exact h.elim

/-- The header load loses a request. -/
theorem answerSlot_lost {l l' : Listener} {latest : HashAndNumber} {slots : List LoadSlot}
    {slot : Nat} {answer : LoadSlot → Option LoadSlot} (err : Error)
    (hanswer : ∀ request request', answer request = some request' →
      request' = .done (.error err))
    (h : l.answerSlot env latest slots slot answer = some l') : l'.phase.Doomed := by
  obtain ⟨request, request', hrequest, hrequest', rfl⟩ := answerSlot_eq_some h
  obtain ⟨hlt, -⟩ := List.getElem?_eq_some_iff.mp hrequest
  rw [hanswer request request' hrequest']
  exact loadProgress_doomed l latest (List.mem_set hlt _)

/-- A lost connection: the two waits of `listen_for_blocks` on the RPC handle subscribe
again, and every other wait dooms the listener. -/
theorem step_lost {l l' : Listener} {reply : Reply} (hlost : reply.isLost = true)
    (hstep : l.step env reply = some l') :
    (l.phase.reconnects = true → l'.phase = .subscribe) ∧
    (l.phase.reconnects = false → l'.phase.Doomed) := by
  obtain ⟨cache, sent, phase⟩ := l
  -- Each phase takes the lost replies of its own request, and no other.
  cases phase with
  | subscribe =>
      match reply, hlost, hstep with
      | .subscribed (.error err), _, rfl => exact ⟨nofun, fun _ => trivial⟩
  | loadNext =>
      match reply, hlost, hstep with
      | .next (some (.error err)), _, rfl => exact ⟨nofun, fun _ => trivial⟩
  | loadCanonical block =>
      match reply, hlost, hstep with
      | .blockHash (.error err), _, rfl => exact ⟨nofun, fun _ => trivial⟩
  | loadHead latestHash =>
      match reply, hlost, hstep with
      | .header (.error err), _, rfl => exact ⟨nofun, fun _ => trivial⟩
  | loadRange latest slots =>
      refine ⟨nofun, fun _ => ?_⟩
      match reply, hlost, hstep with
      | .slotBlockHash slot (.error err), _, hstep =>
          refine answerSlot_lost (.rpc err) (fun request request' h => ?_) hstep
          cases request <;> cases h
          rfl
      | .slotHeader slot (.error err), _, hstep =>
          refine answerSlot_lost (.rpc err) (fun request request' h => ?_) hstep
          cases request <;> cases h
          rfl
  | listenNext best =>
      match reply, hlost, hstep with
      | .next (some (.error err)), _, rfl => exact ⟨nofun, fun _ => trivial⟩
  | listenCanonical best block =>
      match reply, hlost, hstep with
      | .blockHash (.error err), _, rfl => exact ⟨fun _ => rfl, nofun⟩
  | listenRoute best block missing =>
      match reply, hlost, hstep with
      | .header (.error err), _, rfl => exact ⟨fun _ => rfl, nofun⟩
  | returned err => cases hstep
  | panicked => cases hstep

/-- The loop of `listen_for_all_blocks` goes round on the reply: right after it, the
listener calls `subscribe_all` again. -/
def Resubscribes (env : Externals) (l : Listener) (reply : Reply) : Prop :=
  ∀ l', l.step env reply = some l' → l'.phase = .subscribe

/-- The reply ends the listener for good: whatever follows, it has returned, or waits in
a header load that can only fail. -/
def EndsListener (env : Externals) (l : Listener) (reply : Reply) : Prop :=
  ∀ l', l.step env reply = some l' → ∀ (rest : List Reply) (l'' : Listener),
    run (Listener.step env) l' rest = some l'' → l''.phase.Doomed

/-- A lost connection leads straight to a new subscription exactly when it meets one of
the two waits. At any other wait the listener is doomed after it, and a doomed listener
is not subscribing. -/
theorem resubscribes_iff {l : Listener} {reply : Reply} (hlost : reply.isLost = true) :
    Resubscribes env l reply ↔
      ((l.step env reply).isSome = true → l.phase.reconnects = true) := by
  constructor
  · intro hres hsome
    obtain ⟨l', hstep⟩ := Option.isSome_iff_exists.mp hsome
    cases hreconnects : l.phase.reconnects with
    | true => rfl
    | false =>
        have hdoomed := (step_lost hlost hstep).2 hreconnects
        rw [hres l' hstep] at hdoomed
        exact hdoomed.elim
  · intro h l' hstep
    have hreconnects := h (by rw [hstep]; rfl)
    exact (step_lost hlost hstep).1 hreconnects

/-- A connection lost at any other wait ends the listener. The step dooms it, and no
later reply saves it. -/
theorem endsListener_of_lost {l : Listener} {reply : Reply} (hlost : reply.isLost = true)
    (hreconnects : l.phase.reconnects = false) : EndsListener env l reply := by
  intro l' hstep rest l'' hrun
  exact run_invariant (P := fun l => l.phase.Doomed) (fun _ _ _ h hs => step_doomed h hs)
    rest l' l'' ((step_lost hlost hstep).2 hreconnects) hrun

/-- In every run of `listen_for_all_blocks`, with any earlier sessions, the loop goes
round and subscribes again at every lost connection if and only if each meets the
listener in a canonical check or a header fetch of `listen_for_blocks`. A connection
lost at any other wait (for the next block, for the subscription itself, or in the
header load) ends the listener for good. -/
theorem lost_connections_resubscribe_iff (env : Externals) (replies : List Reply) :
    (AllSteps (Listener.step env)
      (fun l reply => reply.isLost = true → Resubscribes env l reply) Listener.init replies ↔
    AllSteps (Listener.step env)
      (fun l reply => reply.isLost = true → (l.step env reply).isSome = true →
        l.phase.reconnects = true) Listener.init replies) ∧
    AllSteps (Listener.step env)
      (fun l reply => reply.isLost = true → l.phase.reconnects = false →
        EndsListener env l reply) Listener.init replies := by
  refine ⟨⟨?_, ?_⟩, ?_⟩
  · exact AllSteps.imp fun l reply h hlost => (resubscribes_iff hlost).mp (h hlost)
  · exact AllSteps.imp fun l reply h hlost => (resubscribes_iff hlost).mpr (h hlost)
  · rw [allSteps_iff]
    intro before reply after l _ _ hlost hreconnects
    exact endsListener_of_lost hlost hreconnects

/-- The replies of a session that starts at the block `2` of the fork, up to the end of
its header load. -/
def forkSession : List Reply :=
  [.subscribed (.ok ()), .next (some (.ok (forkBlock 2).item)), .blockHash (.ok (some 2)),
   fetched (forkBlock 2),
   .slotBlockHash 0 (.ok (some 1)), .slotHeader 0 (.ok (some (forkBlock 1).header)),
   .slotBlockHash 1 (.ok (some 2)), .slotHeader 1 (.ok (some (forkBlock 2).header))]

/-- Three sessions. The connection of the first is lost in the canonical check of `3`,
that of the second when `4` is fetched for the route from `2` to `6`. -/
def forkLosses : List Reply :=
  forkSession ++
    [.next (some (.ok (forkBlock 3).item)), .blockHash (.error ⟨"disconnected"⟩)] ++
  forkSession ++ received (forkBlock 6) 6 ++ [.header (.error ⟨"disconnected"⟩)] ++
  forkSession

/-- Both losses lead to a new subscription, and the listener of the third session
waits for blocks. -/
theorem lost_connections_resubscribe_iff_fork :
    AllSteps (Listener.step walkExternals)
      (fun l reply => reply.isLost = true → Resubscribes walkExternals l reply)
      Listener.init forkLosses ∧
    (run (Listener.step walkExternals) Listener.init forkLosses).map Listener.phase =
      some (.listenNext (forkBlock 2).hashAndNumber) :=
  ⟨(lost_connections_resubscribe_iff walkExternals forkLosses).1.mpr (by decide), rfl⟩

/-- The connection is lost while an idle listener waits for the next block, and the
listener returns the error. -/
theorem lost_subscription_ends_listener :
    ∃ (w w' : World forkTree) (err : SubxtError),
      run World.step (World.init forkNode) forkStart = some w ∧
      w.listener.phase = .listenNext (forkBlock 2).hashAndNumber ∧
      w.step (.lose (.next (some (.error err)))) = some w' ∧
      w'.listener.phase = .returned (.subxt err) ∧
      ¬ Resubscribes walkExternals w.listener (.next (some (.error err))) := by
  refine ⟨_, _, ⟨"disconnected"⟩, rfl, rfl, rfl, rfl, ?_⟩
  rw [resubscribes_iff rfl]
  intro h
  exact Bool.false_ne_true (h rfl)

/-! ### Which blocks a run with lost connections has sent -/

/-- A world with the current best blocks of its listening states so far, oldest first.
The first one is the starting best block of the first session. -/
structure Chronicle (T : BlockTree env) where
  world : World T
  bests : List HashAndNumber

namespace Chronicle

/-- The world makes a step, and its current best block is recorded. -/
def step (c : Chronicle T) (e : WorldEvent T) : Option (Chronicle T) :=
  (c.world.step e).map (fun world =>
    { world := world, bests := c.bests ++ world.listener.currentBestBlock.toList })

/-- Nothing is recorded before the first session. -/
def init (node : Node T) : Chronicle T := { world := .init node, bests := [] }

/-- The block has been sent. -/
def Sent (c : Chronicle T) (x : T.Block) : Prop :=
  ∃ message ∈ c.world.listener.sent, x.blockExt ∈ message.blocks

/-- Every block of the chain of the current best block that is not on the chain of the
first session's starting block has been sent. -/
def Covered (c : Chronicle T) : Prop :=
  ∀ first best : T.Block, c.bests.head? = some first.hashAndNumber →
    c.world.listener.currentBestBlock = some best.hashAndNumber →
    ∀ x, T.tree.IsAncestor x best → ¬ T.tree.IsAncestor x first → c.Sent x

/-- When the step starts a session other than the first, the session's starting block is
on the chain of a current best block of an earlier session. -/
def ResumesBehind (c : Chronicle T) (e : WorldEvent T) : Prop :=
  ∀ c' b, c.step e = some c' → c.world.listener.currentBestBlock = none →
    c'.world.listener.currentBestBlock = some b.hashAndNumber → c.bests ≠ [] →
    ∃ a : T.Block, a.hashAndNumber ∈ c.bests ∧ T.tree.IsAncestor b a

/-- What a chronicle says of every run: it records blocks of the tree, the current best
block among them, and every sent block is on the chain of a recorded one. -/
structure Faithful (c : Chronicle T) : Prop where
  tracks : ∃ s, c.world.Tracks s
  blocks : ∀ h ∈ c.bests, ∃ a : T.Block, h = a.hashAndNumber
  recorded : ∀ a, c.world.listener.currentBestBlock = some a → a ∈ c.bests
  sent : ∀ x : T.Block, c.Sent x → ∃ a : T.Block, a.hashAndNumber ∈ c.bests ∧
    T.tree.IsAncestor x a

/-- Every recorded block has its chain sent, up to the chain of the first one. -/
def AllCovered (c : Chronicle T) : Prop :=
  ∀ first a : T.Block, c.bests.head? = some first.hashAndNumber → a.hashAndNumber ∈ c.bests →
    ∀ x, T.tree.IsAncestor x a → ¬ T.tree.IsAncestor x first → c.Sent x

end Chronicle

/-- What a step can do to the current best block and to the messages: it keeps the best
block or drops it, starts a session, or moves the best block and sends the move. -/
inductive Chronicle.Turn (c c' : Chronicle T) : Prop where
  | keeps (hcur : ∀ a, c'.world.listener.currentBestBlock = some a →
        c.world.listener.currentBestBlock = some a)
      (hsent : c'.world.listener.sent = c.world.listener.sent)
  | starts (b : T.Block) (hcur : c.world.listener.currentBestBlock = none)
      (hcur' : c'.world.listener.currentBestBlock = some b.hashAndNumber)
      (hsent : c'.world.listener.sent = c.world.listener.sent)
  | moves (a b : T.Block) (hcur : c.world.listener.currentBestBlock = some a.hashAndNumber)
      (hcur' : c'.world.listener.currentBestBlock = some b.hashAndNumber)
      (hsent : c'.world.listener.sent = c.world.listener.sent ++ [T.broadcast a b])

namespace Chronicle

/-- A step of a chronicle records the current best block that it leaves, and does one of
four things to it. The four are the effects of a tracker's step, seen at the current
best block and the messages. -/
theorem step_turn (hlaw : env.Lawful T) {c c' : Chronicle T} {e : WorldEvent T}
    (h : c.Faithful) (hstep : c.step e = some c') :
    (∃ s', c'.world.Tracks s') ∧
    c'.bests = c.bests ++ c'.world.listener.currentBestBlock.toList ∧ c.Turn c' := by
  obtain ⟨s, htracks⟩ := h.tracks
  obtain ⟨world, hworld, rfl⟩ := Option.map_eq_some_iff.mp hstep
  cases World.step_moves hlaw htracks hworld with
  | ofNode hlistener htracks' =>
      refine ⟨⟨s, htracks'⟩, rfl, .keeps (fun a ha => ?_) (congrArg Listener.sent hlistener)⟩
      rw [← hlistener]
      exact ha
  | ofListener _ _ move s' _ htstep htracks' hsent =>
      refine ⟨⟨s', htracks'⟩, rfl, ?_⟩
      have hcur := htracks.currentBestBlock
      have hcur' := htracks'.currentBestBlock
      have heffect := htstep.effect
      -- The effect is indexed by the two best blocks, so they have to be variables.
      generalize s.best = best at heffect hcur
      generalize s'.best = best' at heffect hcur'
      cases heffect with
      | same =>
          refine .keeps (fun a ha => ?_) (by simpa [moveBroadcast] using hsent)
          rw [hcur, ← hcur']
          exact ha
      | start b => exact .starts b hcur hcur' (by simpa [moveBroadcast] using hsent)
      | move a b => exact .moves a b hcur hcur' hsent
      | drop =>
          refine .keeps (fun a ha => ?_) (by simpa [moveBroadcast] using hsent)
          cases hcur'.symm.trans ha

/-- The blocks sent after a step without a message. -/
theorem sent_congr {c c' : Chronicle T} {x : T.Block}
    (hsent : c'.world.listener.sent = c.world.listener.sent) : c'.Sent x ↔ c.Sent x := by
  unfold Sent
  rw [hsent]

/-- Different blocks are sent as different `BlockExt`s, as these carry the hash. So a
block was sent exactly when its `BlockExt` is in a message. -/
theorem blockExt_injective : Function.Injective (BlockTree.Block.blockExt : T.Block → BlockExt) :=
  fun _ _ h => BlockTree.Block.eq_of_hash_eq (congrArg BlockExt.hash h)

/-- The blocks sent after a move: those sent before, and those of the branch. -/
theorem sent_moves {c c' : Chronicle T} {a b x : T.Block}
    (hsent : c'.world.listener.sent = c.world.listener.sent ++ [T.broadcast a b]) :
    c'.Sent x ↔ c.Sent x ∨ x ∈ T.tree.branch a b := by
  unfold Sent
  rw [hsent]
  simp only [List.mem_append, List.mem_singleton, or_and_right, exists_or, exists_eq_left]
  refine or_congr_right ?_
  exact List.mem_map_of_injective blockExt_injective

/-- Nothing has been recorded or sent at the start. -/
theorem faithful_init (node : Node T) : (init node).Faithful := by
  refine ⟨⟨.detached, tracks_init⟩, by simp [init], ?_, ?_⟩
  · intro a ha
    cases ha
  · rintro x ⟨message, hmem, -⟩
    cases hmem

/-- A step keeps what a chronicle says. A new session records a block of the tree and
sends nothing, and a move sends the branch to a block that it records. -/
theorem step_faithful (hlaw : env.Lawful T) {c c' : Chronicle T} {e : WorldEvent T}
    (h : c.Faithful) (hstep : c.step e = some c') : c'.Faithful := by
  obtain ⟨⟨s', htracks'⟩, hbests, hturn⟩ := step_turn hlaw h hstep
  have hgrow : ∀ a ∈ c.bests, a ∈ c'.bests := fun a ha => by
    rw [hbests]
    exact List.mem_append_left _ ha
  have hrecorded : ∀ a, c'.world.listener.currentBestBlock = some a → a ∈ c'.bests := by
    intro a ha
    rw [hbests, ha]
    exact List.mem_append_right _ List.mem_cons_self
  have hold : ∀ x, c.Sent x → ∃ a : T.Block, a.hashAndNumber ∈ c'.bests ∧
      T.tree.IsAncestor x a := by
    intro x hx
    obtain ⟨a, ha, hxa⟩ := h.sent x hx
    exact ⟨a, hgrow _ ha, hxa⟩
  refine ⟨⟨s', htracks'⟩, ?_, hrecorded, ?_⟩
  · intro a ha
    rw [hbests, List.mem_append] at ha
    rcases ha with ha | ha
    · exact h.blocks a ha
    · rw [htracks'.currentBestBlock, Option.mem_toList] at ha
      obtain ⟨b, -, hb⟩ := Option.map_eq_some_iff.mp ha
      exact ⟨b, hb.symm⟩
  · intro x hx
    cases hturn with
    | keeps hcur hsent => exact hold x ((sent_congr hsent).mp hx)
    | starts b hcur hcur' hsent => exact hold x ((sent_congr hsent).mp hx)
    | moves a b hcur hcur' hsent =>
        rcases (sent_moves hsent).mp hx with hx | hx
        · exact hold x hx
        · exact ⟨b, hrecorded _ hcur', (ParentTree.mem_branch.mp hx).1⟩

/-- The chains of the recorded blocks stay covered when a new session starts on one of them. -/
theorem step_allCovered (hlaw : env.Lawful T) {c c' : Chronicle T} {e : WorldEvent T}
    (h : c.Faithful) (hcovered : c.AllCovered) (hresumes : c.ResumesBehind e)
    (hstep : c.step e = some c') : c'.AllCovered := by
  obtain ⟨-, hbests, hturn⟩ := step_turn hlaw h hstep
  intro first a hfirst ha x hxa hxfirst
  rw [hbests] at hfirst ha
  cases hold : c.bests with
  | nil =>
      -- The only step that records a first block starts the first session at it.
      rw [hold, List.nil_append] at hfirst ha
      have hrecorded : ∀ b, c.world.listener.currentBestBlock ≠ some b := by
        intro b hb
        have hmem := h.recorded b hb
        rw [hold] at hmem
        cases hmem
      cases hturn with
      | keeps hcur hsent => exact absurd (hcur _ (Option.mem_toList.mp ha)) (hrecorded _)
      | starts b hcur hcur' hsent =>
          rw [hcur'] at hfirst ha
          have hfb : first = b := by simpa using hfirst.symm
          have hab : a = b := by simpa using ha
          exact absurd (hfb ▸ hab ▸ hxa) hxfirst
      | moves a' b hcur => exact absurd hcur (hrecorded _)
  | cons head tail =>
      have hne : c.bests ≠ [] := by rw [hold]; exact List.cons_ne_nil _ _
      have hfirst' : c.bests.head? = some first.hashAndNumber := by
        rw [hold] at hfirst ⊢
        exact hfirst
      -- What was recorded before is covered, and stays so.
      have hcover : ∀ a : T.Block, a.hashAndNumber ∈ c.bests → T.tree.IsAncestor x a →
          c.Sent x := fun a ha hxa => hcovered first a hfirst' ha x hxa hxfirst
      rw [List.mem_append, Option.mem_toList] at ha
      cases hturn with
      | keeps hcur hsent =>
          have hmem := ha.elim id fun hnew => h.recorded _ (hcur _ hnew)
          exact (sent_congr hsent).mpr (hcover a hmem hxa)
      | starts b hcur hcur' hsent =>
          rw [sent_congr hsent]
          rcases ha with hmem | hnew
          · exact hcover a hmem hxa
          · obtain ⟨a', ha', haa'⟩ := hresumes c' a hstep hcur hnew hne
            exact hcover a' ha' (hxa.trans haa')
      | moves a' b hcur hcur' hsent =>
          rw [sent_moves hsent]
          rcases ha with hmem | hnew
          · exact Or.inl (hcover a hmem hxa)
          · -- The chain of the new best block is that of the old one, and the branch.
            have hab : a = b := by
              rw [hcur'] at hnew
              simpa using hnew.symm
            by_cases hxa' : T.tree.IsAncestor x a'
            · exact Or.inl (hcover a' (h.recorded _ hcur) hxa')
            · exact Or.inr (ParentTree.mem_branch.mpr ⟨hab ▸ hxa, hxa'⟩)

/-- Every run is faithful, with the connections lost anywhere in it. Both directions of
the main result take the recorded blocks from here. -/
theorem run_faithful (hlaw : env.Lawful T) {node : Node T} {events : List (WorldEvent T)}
    {c : Chronicle T} (hrun : run step (init node) events = some c) : c.Faithful :=
  run_invariant (fun _ _ _ h hs => step_faithful hlaw h hs) events _ c (faithful_init node) hrun

/-- A session that starts behind: when the state after the step is covered, its starting
block is on the chain of the first block, or was sent, and then it is on the chain of a
recorded block. -/
theorem resumesBehind_of_covered (hlaw : env.Lawful T) {c : Chronicle T} {e : WorldEvent T}
    (h : c.Faithful) (hcovered : ∀ c', c.step e = some c' → c'.Covered) :
    c.ResumesBehind e := by
  intro c' b hstep hnone hcur' hne
  obtain ⟨-, hbests, hturn⟩ := step_turn hlaw h hstep
  obtain ⟨head, tail, hold⟩ := List.exists_cons_of_ne_nil hne
  have hhead : head ∈ c.bests := by rw [hold]; exact List.mem_cons_self
  obtain ⟨first, rfl⟩ := h.blocks head hhead
  by_cases hbfirst : T.tree.IsAncestor b first
  · exact ⟨first, hhead, hbfirst⟩
  · have hfirst : c'.bests.head? = some first.hashAndNumber := by
      rw [hbests, hold]
      rfl
    have hsent := hcovered c' hstep first b hfirst hcur' b (ParentTree.IsAncestor.refl _ _) hbfirst
    cases hturn with
    | keeps hcur => cases hnone.symm.trans (hcur _ hcur')
    | starts b' hcur hcur'' hsame => exact h.sent b ((sent_congr hsame).mp hsent)
    | moves a b' hcur => cases hnone.symm.trans hcur

end Chronicle

/-- Across reconnections, a run has sent every block of the best chain exactly when no
session skips one. In every listening state of the run all the blocks of the current
best chain that are not on the chain of the first session's starting block have been
sent, if and only if each later session starts at a block on the chain of an earlier
current best block. -/
theorem best_chain_sent_iff (hlaw : env.Lawful T) (node : Node T)
    (events : List (WorldEvent T)) :
    (∀ before after c, events = before ++ after →
      run Chronicle.step (Chronicle.init node) before = some c → c.Covered) ↔
    AllSteps Chronicle.step Chronicle.ResumesBehind (Chronicle.init node) events := by
  constructor
  · intro hcovered
    rw [allSteps_iff]
    intro before e after c hsplit hrun
    refine Chronicle.resumesBehind_of_covered hlaw (Chronicle.run_faithful hlaw hrun) ?_
    intro c' hstep
    refine hcovered (before ++ [e]) after c' (by simp [hsplit]) ?_
    exact run_append_eq_some.mpr ⟨c, hrun, by simpa using hstep⟩
  · intro hresumes before after c hsplit hrun
    rw [hsplit, allSteps_append_iff] at hresumes
    have hinv : c.Faithful ∧ c.AllCovered := by
      refine run_invariant_of_allSteps (P := fun c => c.Faithful ∧ c.AllCovered) ?_ before _ c
        ⟨Chronicle.faithful_init node, ?_⟩ hresumes.1 hrun
      · rintro c e c' ⟨hfaithful, hcovered⟩ hresumes hstep
        exact ⟨Chronicle.step_faithful hlaw hfaithful hstep,
          Chronicle.step_allCovered hlaw hfaithful hcovered hresumes hstep⟩
      · intro first a hfirst
        cases hfirst
    intro first best hfirst hbest
    exact hinv.2 first best hfirst (hinv.1.recorded _ hbest)

/-! ### A reconnection on a fork -/

/-- The listener is at `2` when the connection is lost in the canonical check of `3`.
While it is away the node imports `5`, and the new session starts there. -/
def forkReconnect : List (WorldEvent forkTree) :=
  forkStart ++
    [.importBlock (forkBlock 3) true, .deliver (forkBlock 3),
     .lose (.blockHash (.error ⟨"disconnected"⟩)), .importBlock (forkBlock 5) true,
     .answer, .deliver (forkBlock 5), .answer, .answer,
     .answerSlot 0, .answerSlot 1, .answerSlot 2, .answerSlot 3,
     .answerSlot 0, .answerSlot 1, .answerSlot 2, .answerSlot 3]

/-- Where the reconnection on a fork ends. -/
def forkReconnected : Chronicle forkTree :=
  (run Chronicle.step (Chronicle.init forkNode) forkReconnect).get (by decide)

/-- The reconnection on a fork is a run, which ends in `forkReconnected`. -/
theorem forkReconnected_run :
    run Chronicle.step (Chronicle.init forkNode) forkReconnect = some forkReconnected :=
  (Option.some_get _).symm

/-- The block `3` is on the chain of the current best block, not on that of the first
session's starting block, and nothing was sent. -/
theorem not_covered_forkReconnected : ¬ forkReconnected.Covered := by
  intro hcovered
  obtain ⟨message, hmem, -⟩ := hcovered (forkBlock 2) (forkBlock 5) rfl rfl (forkBlock 3)
    (by decide) (by decide)
  have hnil : forkReconnected.world.listener.sent = [] := by decide
  rw [hnil] at hmem
  cases hmem

/-- The reconnection leaves the block `3` out. -/
theorem reconnection_skips_block :
    run Chronicle.step (Chronicle.init forkNode) forkReconnect = some forkReconnected ∧
    forkReconnected.world.listener.phase = .listenNext (forkBlock 5).hashAndNumber ∧
    ¬ forkReconnected.Covered :=
  ⟨forkReconnected_run, rfl, not_covered_forkReconnected⟩

/-- The second session of that run starts ahead of the first. -/
theorem best_chain_sent_iff_fork :
    ¬ AllSteps Chronicle.step Chronicle.ResumesBehind (Chronicle.init forkNode) forkReconnect := by
  rw [← best_chain_sent_iff forkTree_lawful]
  intro hcovered
  exact not_covered_forkReconnected (hcovered forkReconnect [] _ (by simp) forkReconnected_run)

end ChainAlerter
