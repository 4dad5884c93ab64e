import ChainAlerter.Abstract.Tracker

/-!
# `ChainAlerter.Abstract.Source`: the source that a tracker follows

A `Source` holds a set of nodes of the tree that is closed under parents, and
one of them is its best node. It grows by nodes whose parent it holds, and its
best node may change. `Source.Answers` says what it answers to a tracker: a
verdict compares the candidate with the chain of the best node at that moment,
and there is no verdict on a candidate above that chain.

`Agrees` is the invariant of a tracker that receives every new node once and in
order, through a queue. New nodes are never ancestors of older ones, so nothing
in the queue is an ancestor of what the tracker holds, and the best node is
either still in the queue or held. The step lemmas `Agrees.add`,
`Agrees.receive` and `Agrees.answer` are one for each party, so the invariant
holds under every interleaving of them.
-/

set_option autoImplicit false

namespace ChainAlerter.Abstract

open ChainAlerter.Library

variable {β : Type} {t : ParentTree β}

/-- The nodes that a source holds, closed under parents, and the best of them. -/
structure Source (t : ParentTree β) where
  imported : List β
  best : β
  best_mem : best ∈ imported
  closed : ∀ b ∈ imported, t.parent b ∈ imported

namespace Source

section Operations
variable [DecidableEq β]

/-- The source with one more node, whose parent it holds. -/
def add (src : Source t) (b : β) (newBest : Bool) : Option (Source t) :=
  if h : b ∉ src.imported ∧ t.parent b ∈ src.imported then
    some
      { imported := b :: src.imported
        best := if newBest then b else src.best
        best_mem := by
          cases newBest with
          | false => exact List.mem_cons_of_mem _ src.best_mem
          | true => exact List.mem_cons_self
        closed := by
          intro x hx
          rcases List.mem_cons.mp hx with rfl | hx
          · exact List.mem_cons_of_mem _ h.2
          · exact List.mem_cons_of_mem _ (src.closed x hx) }
  else none

/-- The source with another best node. -/
def setBest (src : Source t) (b : β) : Option (Source t) :=
  if h : b ∈ src.imported then some { src with best := b, best_mem := h } else none

/-- An import that goes through adds a new block. The best block becomes that one, or
stays, as the import says. -/
theorem add_eq_some {src src' : Source t} {b : β} {newBest : Bool}
    (h : src.add b newBest = some src') :
    b ∉ src.imported ∧ src'.imported = b :: src.imported ∧
      src'.best = if newBest then b else src.best := by
  unfold add at h
  split at h
  · rename_i hnew
    cases h
    exact ⟨hnew.1, rfl, rfl⟩
  · cases h

/-- A change of the best block leaves the imported blocks as they are. It only goes
through to a block that has been imported. -/
theorem setBest_eq_some {src src' : Source t} {b : β} (h : src.setBest b = some src') :
    src'.imported = src.imported ∧ src'.best = b := by
  unfold setBest at h
  split at h
  · cases h
    exact ⟨rfl, rfl⟩
  · cases h

end Operations

/-- A source holds the ancestors of its nodes. -/
theorem mem_of_isAncestor (src : Source t) {x b : β} (h : t.IsAncestor x b)
    (hb : b ∈ src.imported) : x ∈ src.imported :=
  h.mem_of_closed (S := fun b => b ∈ src.imported) (fun a ha => src.closed a ha) hb

/-- A node that a source does not hold is no ancestor of the nodes it holds. -/
theorem not_isAncestor (src : Source t) {x b : β} (hx : x ∉ src.imported)
    (hb : b ∈ src.imported) : ¬ t.IsAncestor x b :=
  fun h => hx (src.mem_of_isAncestor h hb)

end Source

/-- The received node that a tracker waits for a verdict on. -/
def Tracker.candidate : Tracker β → Option β
  | .checking b => some b
  | .verifying _ b => some b
  | _ => none

/-- What a source answers to a tracker. On a candidate not above its chain it gives a
verdict, on one above it the answer is missing, and everything else succeeds. -/
inductive Source.Answers (src : Source t) (s : Tracker β) : Act β → Prop where
  | verdict (b : β) (hs : s.candidate = some b) (htip : t.height b ≤ t.height src.best)
      (canonical : Bool) (hcanonical : canonical = true ↔ t.IsAncestor b src.best) :
      Source.Answers src s (.verdict canonical)
  | aboveTip (b : β) (hs : s.candidate = some b) (htip : t.height src.best < t.height b) :
      Source.Answers src s .missing
  | internal (hs : s.candidate = none) : Source.Answers src s .internal

/-! ### Agreement -/

/-- The nodes that a tracker works with. -/
def Tracker.holds : Tracker β → List β
  | .checking b => [b]
  | .starting b => [b]
  | .following a => [a]
  | .verifying a b => [a, b]
  | .routing a b => [a, b]
  | _ => []

/-- Where the best node of the source is. A tracker without a best node has it ahead, or
has nothing of its chain ahead. From the first best node on, it is ahead or held. A
detached tracker has no queue to locate it in. -/
def Tracker.Locates (t : ParentTree β) (best : β) (queue : List β) : Tracker β → Prop
  | .waiting => best ∈ queue ∨ ∀ n ∈ queue, ¬ t.IsAncestor n best
  | .checking b => best ∈ b :: queue ∨ ∀ n ∈ b :: queue, ¬ t.IsAncestor n best
  | .starting b => best ∈ queue ∨ b = best
  | .following a => best ∈ queue ∨ a = best
  | .verifying a b => ¬ t.IsAncestor b a ∧ (best ∈ b :: queue ∨ a = best)
  | .routing a b => ¬ t.IsAncestor b a ∧ (best ∈ queue ∨ b = best)
  | .detached => False
  | .stopped => True

/-- A source, the queue of its new nodes and a tracker that takes them from there agree. -/
structure Agrees (src : Source t) (queue : List β) (s : Tracker β) : Prop where
  queue_mem : ∀ n ∈ queue, n ∈ src.imported
  holds_mem : ∀ x ∈ s.holds, x ∈ src.imported
  ordered : queue.Pairwise (fun x y => ¬ t.IsAncestor y x)
  ahead : ∀ x ∈ s.holds, ∀ n ∈ queue, ¬ t.IsAncestor n x
  locates : s.Locates t src.best queue

/-- With an empty queue, an idle tracker is at the best node. -/
theorem Agrees.eq_best {src : Source t} {a : β} (h : Agrees src [] (.following a)) :
    a = src.best := by
  rcases h.locates with hmem | heq
  · cases hmem
  · exact heq

/-- A new node at the end of the queue keeps the best node located: it becomes the best
node, or leaves it where it was and is not on its chain. -/
theorem Tracker.Locates.add {best b : β} {queue : List β} {newBest : Bool} {s : Tracker β}
    (h : s.Locates t best queue) (hb : ¬ t.IsAncestor b best) :
    s.Locates t (if newBest then b else best) (queue ++ [b]) := by
  cases newBest with
  | true =>
      -- The new best node is the last one of the queue.
      cases s with
      | waiting => exact Or.inl (by simp)
      | checking c => exact Or.inl (by simp)
      | starting c => exact Or.inl (by simp)
      | following a => exact Or.inl (by simp)
      | verifying a c => exact ⟨h.1, Or.inl (by simp)⟩
      | routing a c => exact ⟨h.1, Or.inl (by simp)⟩
      | detached => exact h.elim
      | stopped => trivial
  | false =>
      show s.Locates t best (queue ++ [b])
      have hgrow : ∀ {queue' : List β}, best ∈ queue' → best ∈ queue' ++ [b] :=
        fun hmem => List.mem_append_left _ hmem
      have hoff : ∀ queue' : List β, (∀ n ∈ queue', ¬ t.IsAncestor n best) →
          ∀ n ∈ queue' ++ [b], ¬ t.IsAncestor n best := by
        intro queue' hqueue n hn
        rcases List.mem_append.mp hn with hn | hn
        · exact hqueue n hn
        · rw [List.mem_singleton.mp hn]
          exact hb
      cases s with
      | waiting => exact h.imp hgrow (hoff queue)
      | checking c => exact h.imp hgrow (hoff (c :: queue))
      | starting c => exact h.imp_left hgrow
      | following a => exact h.imp_left hgrow
      | verifying a c => exact ⟨h.1, h.2.imp_left hgrow⟩
      | routing a c => exact ⟨h.1, h.2.imp_left hgrow⟩
      | detached => exact h.elim
      | stopped => trivial

/-- The source grows, and queues the new node. It comes behind the whole queue and is an
ancestor of nothing that the queue or the tracker holds, and the best node is still
located, or is the new one. -/
theorem Agrees.add [DecidableEq β] {src src' : Source t} {queue : List β} {s : Tracker β}
    {b : β} {newBest : Bool} (h : Agrees src queue s) (hadd : src.add b newBest = some src') :
    Agrees src' (queue ++ [b]) s := by
  obtain ⟨hnew, himported, hbest⟩ := Source.add_eq_some hadd
  have hfresh : ∀ x ∈ src.imported, ¬ t.IsAncestor b x := fun x hx => src.not_isAncestor hnew hx
  refine ⟨?_, ?_, ?_, ?_, ?_⟩
  · intro n hn
    rw [himported]
    rcases List.mem_append.mp hn with hn | hn
    · exact List.mem_cons_of_mem _ (h.queue_mem n hn)
    · rw [List.mem_singleton.mp hn]
      exact List.mem_cons_self
  · intro x hx
    rw [himported]
    exact List.mem_cons_of_mem _ (h.holds_mem x hx)
  · -- The new node is behind all of the queue, and no ancestor of any of it.
    rw [List.pairwise_append]
    refine ⟨h.ordered, List.pairwise_singleton _ _, fun x hx y hy => ?_⟩
    rw [List.mem_singleton.mp hy]
    exact hfresh x (h.queue_mem x hx)
  · intro x hx n hn
    rcases List.mem_append.mp hn with hn | hn
    · exact h.ahead x hx n hn
    · rw [List.mem_singleton.mp hn]
      exact hfresh x (h.holds_mem x hx)
  · rw [hbest]
    exact h.locates.add (hfresh _ src.best_mem)

/-- The tracker takes the next node from the queue and makes it its candidate. The best
node of the source is still in the queue or with the tracker, which is all that
`Locates` asks. -/
theorem Agrees.receive {src : Source t} {queue : List β} {s s' : Tracker β} {b : β}
    {move : Option (β × β)} (h : Agrees src (b :: queue) s)
    (hstep : Tracker.Step t s (.receive b) move s') : Agrees src queue s' := by
  obtain ⟨hbehind, hordered⟩ := List.pairwise_cons.mp h.ordered
  have hqueue : ∀ n ∈ queue, n ∈ src.imported :=
    fun n hn => h.queue_mem n (List.mem_cons_of_mem _ hn)
  cases hstep with
  | receiveFirst =>
      refine ⟨hqueue, ?_, hordered, ?_, h.locates⟩
      · intro x hx
        rw [List.mem_singleton.mp hx]
        exact h.queue_mem b List.mem_cons_self
      · intro x hx
        rw [List.mem_singleton.mp hx]
        exact hbehind
  | receive a =>
      -- Nothing in the queue is an ancestor of the best node.
      have hba : ¬ t.IsAncestor b a :=
        h.ahead a List.mem_cons_self b List.mem_cons_self
      refine ⟨hqueue, ?_, hordered, ?_, hba, h.locates⟩
      · intro x hx
        rcases List.mem_cons.mp hx with rfl | hx
        · exact h.holds_mem x List.mem_cons_self
        · rw [List.mem_singleton.mp hx]
          exact h.queue_mem b List.mem_cons_self
      · intro x hx n hn
        rcases List.mem_cons.mp hx with rfl | hx
        · exact h.ahead x List.mem_cons_self n (List.mem_cons_of_mem _ hn)
        · rw [List.mem_singleton.mp hx]
          exact hbehind n hn

/-- The parts of the agreement that only need fewer held nodes. -/
theorem Agrees.of_holds {src : Source t} {queue : List β} {s s' : Tracker β}
    (h : Agrees src queue s) (hholds : ∀ x ∈ s'.holds, x ∈ s.holds)
    (hlocates : s'.Locates t src.best queue) : Agrees src queue s' :=
  ⟨h.queue_mem, fun x hx => h.holds_mem x (hholds x hx), h.ordered,
    fun x hx => h.ahead x (hholds x hx), hlocates⟩

/-- The work on an accepted node that is not an ancestor of the best one, when the
source's best node is ahead or is the accepted one. -/
theorem Agrees.settles {src : Source t} {queue : List β} {s s' : Tracker β} {a b : β}
    {move : Option (β × β)} (h : Agrees src queue s) (hs : s.holds = [a, b])
    (hba : ¬ t.IsAncestor b a) (hbest : src.best ∈ queue ∨ b = src.best)
    (hsettles : Tracker.Settles t a b move s') : Agrees src queue s' := by
  cases hsettles with
  | working => exact h.of_holds (by rw [hs]; exact fun x hx => hx) ⟨hba, hbest⟩
  | stay hstay => exact absurd hstay hba
  | move =>
      refine h.of_holds (fun x hx => ?_) hbest
      rw [hs, List.mem_singleton.mp hx]
      exact List.mem_cons_of_mem _ List.mem_cons_self

/-- The source answers the tracker. The verdict is about its chain at this moment: a
candidate that is refused is not the best node, so that one is ahead in the queue or is
the node that the tracker follows. -/
theorem Agrees.answer {src : Source t} {queue : List β} {s s' : Tracker β} {act : Act β}
    {move : Option (β × β)} (h : Agrees src queue s) (hact : src.Answers s act)
    (hstep : Tracker.Step t s act move s') : Agrees src queue s' := by
  have hlocates := h.locates
  cases hact with
  | aboveTip =>
      cases hstep with
      | stop => exact h.of_holds (fun x hx => by cases hx) trivial
  | internal hs =>
      cases hstep with
      | attach => exact hlocates.elim
      | prepare b => exact h
      | ready b => exact h.of_holds (fun x hx => hx) hlocates
      | abandon b => exact h.of_holds (fun x hx => by cases hx) trivial
      | work a b hsettles => exact h.settles rfl hlocates.1 hlocates.2 hsettles
  | verdict b hs htip canonical hcanonical =>
      cases hstep with
      | rejectFirst b' =>
          cases hs
          -- The rejected node is not the best one, which is on its own chain.
          have hoff : ¬ t.IsAncestor b src.best := fun hb => by simpa using hcanonical.mpr hb
          refine h.of_holds (fun x hx => by cases hx) ?_
          rcases hlocates with hmem | hnone
          · rcases List.mem_cons.mp hmem with heq | hmem
            · exact absurd (heq ▸ ParentTree.IsAncestor.refl _ _) hoff
            · exact Or.inl hmem
          · exact Or.inr fun n hn => hnone n (List.mem_cons_of_mem _ hn)
      | acceptFirst b' =>
          cases hs
          -- With `b` on the best chain, the best node is ahead, or is `b`.
          have hon : t.IsAncestor b src.best := hcanonical.mp rfl
          refine h.of_holds (fun x hx => hx) ?_
          rcases hlocates with hmem | hnone
          · rcases List.mem_cons.mp hmem with heq | hmem
            · exact Or.inr heq.symm
            · exact Or.inl hmem
          · exact absurd hon (hnone b List.mem_cons_self)
      | reject a b' =>
          cases hs
          have hoff : ¬ t.IsAncestor b src.best := fun hb => by simpa using hcanonical.mpr hb
          refine h.of_holds (fun x hx => ?_) ?_
          · rw [List.mem_singleton.mp hx]
            exact List.mem_cons_self
          · rcases hlocates.2 with hmem | heq
            · rcases List.mem_cons.mp hmem with heq | hmem
              · exact absurd (heq ▸ ParentTree.IsAncestor.refl _ _) hoff
              · exact Or.inl hmem
            · exact Or.inr heq
      | accept a b' hsettles =>
          cases hs
          have hon : t.IsAncestor b src.best := hcanonical.mp rfl
          refine h.settles rfl hlocates.1 ?_ hsettles
          rcases hlocates.2 with hmem | heq
          · rcases List.mem_cons.mp hmem with heq | hmem
            · exact Or.inr heq.symm
            · exact Or.inl hmem
          · -- The best node is held, so a node not below it is not on its chain.
            exact absurd (heq ▸ hon) hlocates.1

end ChainAlerter.Abstract
