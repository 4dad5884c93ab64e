import ChainAlerter.Library.ParentTree

/-!
# `ChainAlerter.Abstract.Tracker`: following the best block of a tree

What the block listener is for, with no cache, header or message in sight. A
tracker attaches to a source of nodes of a tree, takes the first node that the
source calls canonical as its best one, and from there on moves to each received
node that is canonical and is not an ancestor of its best one. A move is the pair
of the old and the new best node.

`Tracker.Step` is the step relation. An `Act` says what the step answers to: a
received node, a verdict on it, a failure, or internal work. The routes may take
internal work to compute (`routing`), during which the source goes on. A missing
answer ends the tracker for good, a lost connection may end only its session.

`ChainAlerter.Proofs.Tracks` shows that the block listener refines this tracker.
-/

set_option autoImplicit false

namespace ChainAlerter.Abstract

open ChainAlerter.Library

variable {β : Type}

/-- The states of a tracker.

- `detached`: no session;
- `waiting`, `checking b`, `starting b`: a session without a best node, a node being
  checked in it, and the accepted node being prepared;
- `following a`, `verifying a b`, `routing a b`: the best node is `a`, a received node `b` is
  being checked, and the route to the accepted node `b` is being computed;
- `stopped`: ended for good. -/
inductive Tracker (β : Type) where
  | detached
  | waiting
  | checking (b : β)
  | starting (b : β)
  | following (a : β)
  | verifying (a b : β)
  | routing (a b : β)
  | stopped

/-- What a step answers to: internal work, a received node, a verdict on it, an answer
that is missing, or a lost connection. -/
inductive Act (β : Type) where
  | internal
  | receive (b : β)
  | verdict (canonical : Bool)
  | missing
  | lost

namespace Tracker

/-- The best node, while there is one. -/
def best : Tracker β → Option β
  | following a => some a
  | verifying a _ => some a
  | routing a _ => some a
  | _ => none

/-- The outcome of the work on an accepted node `b`: it goes on, or it ends with no move
when `b` is an ancestor of the best node `a`, and with a move to `b` when it is not. -/
inductive Settles (t : ParentTree β) (a b : β) : Option (β × β) → Tracker β → Prop where
  | working : Settles t a b none (routing a b)
  | stay (h : t.IsAncestor b a) : Settles t a b none (following a)
  | move (h : ¬ t.IsAncestor b a) : Settles t a b (some (a, b)) (following b)

/-- One step, with the move it makes. -/
inductive Step (t : ParentTree β) :
    Tracker β → Act β → Option (β × β) → Tracker β → Prop where
  | attach : Step t detached .internal none waiting
  | receiveFirst (b : β) : Step t waiting (.receive b) none (checking b)
  | rejectFirst (b : β) : Step t (checking b) (.verdict false) none waiting
  | acceptFirst (b : β) : Step t (checking b) (.verdict true) none (starting b)
  | prepare (b : β) : Step t (starting b) .internal none (starting b)
  | ready (b : β) : Step t (starting b) .internal none (following b)
  | abandon (b : β) : Step t (starting b) .internal none stopped
  | receive (a b : β) : Step t (following a) (.receive b) none (verifying a b)
  | reject (a b : β) : Step t (verifying a b) (.verdict false) none (following a)
  | accept (a b : β) {move : Option (β × β)} {s : Tracker β} (h : Settles t a b move s) :
      Step t (verifying a b) (.verdict true) move s
  | work (a b : β) {move : Option (β × β)} {s : Tracker β} (h : Settles t a b move s) :
      Step t (routing a b) .internal move s
  | stop (s : Tracker β) : Step t s .missing none stopped
  | exit (s : Tracker β) : Step t s .lost none stopped
  | detach (s : Tracker β) : Step t s .lost none detached

/-- What a step does to the best node: it leaves it, takes a first one, moves it, or
drops it. The move is reported exactly when there is one. -/
inductive Effect (t : ParentTree β) :
    Option β → Option (β × β) → Option β → Prop where
  | same (a : Option β) : Effect t a none a
  | start (b : β) : Effect t none none (some b)
  | move (a b : β) (h : ¬ t.IsAncestor b a) : Effect t (some a) (some (a, b)) (some b)
  | drop (a : Option β) : Effect t a none none

/-- The work on an accepted block moves the best block, or leaves it at `a`. It never
drops the best block, which only the end of a session does. -/
theorem Settles.effect {t : ParentTree β} {a b : β} {move : Option (β × β)} {s : Tracker β}
    (h : Settles t a b move s) : Effect t (some a) move s.best := by
  cases h with
  | working => exact .same _
  | stay => exact .same _
  | move h => exact .move a b h

/-- What a step does to the best block, by the kind of the step: it keeps it, starts
from it, moves it, or drops it. The invariants over the best block need no more than
this of a step. -/
theorem Step.effect {t : ParentTree β} {s s' : Tracker β} {act : Act β}
    {move : Option (β × β)} (h : Step t s act move s') : Effect t s.best move s'.best := by
  cases h with
  | attach => exact .same _
  | receiveFirst => exact .same _
  | rejectFirst => exact .same _
  | acceptFirst => exact .same _
  | prepare => exact .same _
  | ready b => exact .start b
  | abandon => exact .same _
  | receive => exact .same _
  | reject => exact .same _
  | accept a b h => exact h.effect
  | work a b h => exact h.effect
  | stop => exact .drop _
  | exit => exact .drop _
  | detach => exact .drop _

/-- A step that moves works on a received node, and ends at it. The node was accepted by
a verdict, or its route has been computed. -/
theorem Step.of_move {t : ParentTree β} {s s' : Tracker β} {act : Act β} {a b : β}
    (h : Step t s act (some (a, b)) s') :
    (s = verifying a b ∨ s = routing a b) ∧ s' = following b ∧ ¬ t.IsAncestor b a := by
  cases h with
  | accept a b h =>
      cases h with
      | move h => exact ⟨Or.inl rfl, rfl, h⟩
  | work a b h =>
      cases h with
      | move h => exact ⟨Or.inr rfl, rfl, h⟩

/-- A step without a move does not change the best node, unless it drops it. So all
changes within a session are seen by those who hear the moves. -/
theorem Step.of_no_move {t : ParentTree β} {s s' : Tracker β} {act : Act β}
    (h : Step t s act none s') {a b : β} (ha : s.best = some a) (hb : s'.best = some b) :
    b = a := by
  have heffect := h.effect
  rw [ha, hb] at heffect
  cases heffect
  rfl

end Tracker

end ChainAlerter.Abstract
