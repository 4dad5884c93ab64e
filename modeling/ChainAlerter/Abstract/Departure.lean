import ChainAlerter.Abstract.Source

/-!
# `ChainAlerter.Abstract.Departure`: leaving the chain of a node

A source goes over from a node `a` to a node `b` that is on another branch. A
tracker that is at `a` or above it has to leave the branch at some time, and
`Retracts` says that a move leaves it as a whole: every node of `a`'s chain that
is not on `b`'s is on the old chain and not on the new one.

`Tracker.StaysOn` is the invariant until then. It holds as long as no verdict is
given while the source's chain leaves `a`'s inside the branch
(`StaysOn.answer`), and the verdict on `b` itself ends it (`StaysOn.leaves`).
From there the route is being computed (`Tracker.Leaves`), and the move it ends in
retracts the branch.
-/

set_option autoImplicit false

namespace ChainAlerter.Abstract

open ChainAlerter.Library

variable {β : Type} {t : ParentTree β} {a b : β}

/-- The move takes the best node off all of `a`'s chain that is not `b`'s. -/
def Retracts (t : ParentTree β) (a b : β) (m : β × β) : Prop :=
  ∀ x, t.IsAncestor x a → ¬ t.IsAncestor x b → t.IsAncestor x m.1 ∧ ¬ t.IsAncestor x m.2

/-- The best node is at or above `a`. A route being computed leads to a node that is at
or above `a` too, or is an ancestor of the best node, or retracts the branch. -/
def Tracker.StaysOn (t : ParentTree β) (a b : β) : Tracker β → Prop
  | .following c => t.IsAncestor a c
  | .verifying c _ => t.IsAncestor a c
  | .routing c d => t.IsAncestor a c ∧
      (t.IsAncestor a d ∨ t.IsAncestor d c ∨ Retracts t a b (c, d))
  | .stopped => True
  | _ => False

/-- The route being computed retracts the branch, and ends in a move. -/
def Tracker.Leaves (t : ParentTree β) (a b : β) : Tracker β → Prop
  | .routing c d => ¬ t.IsAncestor d c ∧ Retracts t a b (c, d)
  | .stopped => True
  | _ => False

/-- The chain of `best` has all of `a`'s branch off `b`'s chain on it, or nothing of it. -/
def Spares (t : ParentTree β) (a b best : β) : Prop :=
  t.IsAncestor a best ∨ ∀ x, t.IsAncestor x a → t.IsAncestor x best → t.IsAncestor x b

/-- A node on a chain that spares the branch, seen from a best node `c` at or above `a`.
With `a` on the chain it is at or above `a`, or below it. Otherwise it has nothing of
the branch below it. -/
theorem Spares.towards {c d best : β} (hspares : Spares t a b best) (hac : t.IsAncestor a c)
    (hd : t.IsAncestor d best) :
    t.IsAncestor a d ∨ t.IsAncestor d c ∨ Retracts t a b (c, d) := by
  rcases hspares with hbest | hnone
  · rcases hd.total hbest with hda | had
    · exact Or.inr (Or.inl (hda.trans hac))
    · exact Or.inl had
  · refine Or.inr (Or.inr fun x hxa hxb => ⟨hxa.trans hac, fun hxd => ?_⟩)
    exact hxb (hnone x hxa (hxd.trans hd))

/-- The work on an accepted node keeps the tracker on the branch, or retracts it. The
work may go on, stay at the old best node or move to the received one, and only a move
from the branch to a node off it retracts. -/
theorem Tracker.StaysOn.settles {c d : β} {move : Option (β × β)} {s' : Tracker β}
    (hac : t.IsAncestor a c)
    (htowards : t.IsAncestor a d ∨ t.IsAncestor d c ∨ Retracts t a b (c, d))
    (hsettles : Tracker.Settles t c d move s') :
    s'.StaysOn t a b ∨ ∃ m, move = some m ∧ Retracts t a b m := by
  cases hsettles with
  | working => exact Or.inl ⟨hac, htowards⟩
  | stay => exact Or.inl hac
  | move hdc =>
      rcases htowards with had | hdc' | hretracts
      · exact Or.inl had
      · exact absurd hdc' hdc
      · exact Or.inr ⟨_, rfl, hretracts⟩

/-- A received node changes nothing. -/
theorem Tracker.StaysOn.receive {s s' : Tracker β} {n : β} {move : Option (β × β)}
    (h : s.StaysOn t a b) (hstep : Tracker.Step t s (.receive n) move s') :
    s'.StaysOn t a b := by
  cases hstep with
  | receiveFirst => exact h.elim
  | receive c n => exact h

/-- An answer of the source, where a verdict is given while its chain spares the branch.
A verdict against the received node leaves the tracker where it is, and one for it leads
to the work above. -/
theorem Tracker.StaysOn.answer {src : Source t} {s s' : Tracker β} {act : Act β}
    {move : Option (β × β)} (h : s.StaysOn t a b) (hact : src.Answers s act)
    (hspares : s.candidate ≠ none → Spares t a b src.best)
    (hstep : Tracker.Step t s act move s') :
    s'.StaysOn t a b ∨ ∃ m, move = some m ∧ Retracts t a b m := by
  cases hact with
  | aboveTip =>
      cases hstep with
      | stop => exact Or.inl trivial
  | internal =>
      cases hstep with
      | attach => exact h.elim
      | prepare => exact h.elim
      | ready => exact h.elim
      | abandon => exact h.elim
      | work c d hsettles => exact StaysOn.settles h.1 h.2 hsettles
  | verdict d hs htip canonical hcanonical =>
      cases hstep with
      | rejectFirst => exact h.elim
      | acceptFirst => exact h.elim
      | reject c d => exact Or.inl h
      | accept c d' hsettles =>
          cases hs
          have hd : t.IsAncestor d src.best := hcanonical.mp rfl
          exact StaysOn.settles h ((hspares (by simp [candidate])).towards h hd) hsettles

/-- The verdict on `b`, given while `b` is on the source's chain: the tracker leaves the
branch now, or is about to. -/
theorem Tracker.StaysOn.leaves {src : Source t} {c : β} {s' : Tracker β} {act : Act β}
    {move : Option (β × β)} (h : t.IsAncestor a c) (hab : ¬ t.IsAncestor a b)
    (hba : ¬ t.IsAncestor b a) (hb : t.IsAncestor b src.best)
    (hact : src.Answers (.verifying c b) act)
    (hstep : Tracker.Step t (.verifying c b) act move s') :
    s'.Leaves t a b ∨ ∃ m, move = some m ∧ Retracts t a b m := by
  have hbc : ¬ t.IsAncestor b c := fun hbc => (hbc.total h).elim hba hab
  have hretracts : Retracts t a b (c, b) := fun x hxa hxb => ⟨hxa.trans h, hxb⟩
  cases hact with
  | aboveTip d hs htip =>
      cases hs
      exact absurd hb.height_le (Nat.not_le.mpr htip)
  | internal hs => cases hs
  | verdict d hs htip canonical hcanonical =>
      cases hs
      cases hstep with
      | reject => exact absurd (hcanonical.mpr hb) (by simp)
      | accept _ _ hsettles =>
          cases hsettles with
          | working => exact Or.inl ⟨hbc, hretracts⟩
          | stay hstay => exact absurd hstay hbc
          | move => exact Or.inr ⟨_, rfl, hretracts⟩

/-- The work on the route that retracts the branch goes on, or ends in the move. No
answer of the source stops it, so the reorg is made once the work has begun. -/
theorem Tracker.Leaves.answer {src : Source t} {s s' : Tracker β} {act : Act β}
    {move : Option (β × β)} (h : s.Leaves t a b) (hact : src.Answers s act)
    (hstep : Tracker.Step t s act move s') :
    s'.Leaves t a b ∨ ∃ m, move = some m ∧ Retracts t a b m := by
  cases hact with
  | aboveTip =>
      cases hstep with
      | stop => exact Or.inl trivial
  | internal =>
      cases hstep with
      | attach => exact h.elim
      | prepare => exact h.elim
      | ready => exact h.elim
      | abandon => exact h.elim
      | work c d hsettles =>
          cases hsettles with
          | working => exact Or.inl h
          | stay hstay => exact absurd hstay h.1
          | move => exact Or.inr ⟨_, rfl, h.2⟩
  | verdict =>
      cases hstep with
      | rejectFirst => exact h.elim
      | acceptFirst => exact h.elim
      | reject => exact h.elim
      | accept => exact h.elim

/-- A tracker that computes a route receives nothing. -/
theorem Tracker.Leaves.receive {s s' : Tracker β} {n : β} {move : Option (β × β)}
    (h : s.Leaves t a b) (hstep : Tracker.Step t s (.receive n) move s') : False := by
  cases hstep with
  | receiveFirst => exact h
  | receive => exact h

end ChainAlerter.Abstract
