import Mathlib

/-!
# `ChainAlerter.Library.BoundedVec`: a vector with a bound

`BoundedVec α bound` is a list of at most `bound` elements, as in the
`bounded-collections` crate. `forcePush` makes room at the end: it first cuts the
vector to its first `bound - 1` elements, and then appends. So a full vector
loses its newest element, not its oldest one.

`kept bound xs` is what is left of any list pushed one by one: its first
`bound - 1` elements, and the last one of the rest (`kept_append_singleton`).
-/

set_option autoImplicit false

namespace ChainAlerter.Library

/-- A list of at most `bound` elements. -/
structure BoundedVec (α : Type) (bound : Nat) where
  elems : List α
  length_le : elems.length ≤ bound

namespace BoundedVec

variable {α : Type} {bound : Nat}

/-- A vector is determined by its elements, since the bound on their number is only a proof. -/
@[ext] theorem ext {v w : BoundedVec α bound} (h : v.elems = w.elems) : v = w := by
  cases v
  cases w
  cases h
  rfl

instance [DecidableEq α] : DecidableEq (BoundedVec α bound) := fun v w =>
  decidable_of_iff (v.elems = w.elems) ⟨ext, congrArg elems⟩

/-- The vector to which nothing has been pushed. -/
def empty : BoundedVec α bound := ⟨[], Nat.zero_le _⟩

/-- The number of elements. -/
def len (v : BoundedVec α bound) : Nat := v.elems.length

/-- The last element. -/
def last? (v : BoundedVec α bound) : Option α := v.elems.getLast?

/-- Whether there is no room for another element. -/
def isFull (v : BoundedVec α bound) : Bool := decide (bound ≤ v.len)

/-- Appends, after cutting off what would leave no room. Nothing fits into a vector
with bound `0`. -/
def forcePush (v : BoundedVec α bound) (x : α) : BoundedVec α bound :=
  if h : 0 < bound then
    { elems := v.elems.take (bound - 1) ++ [x]
      length_le := by
        rw [List.length_append, List.length_take, List.length_singleton]
        omega }
  else v

/-- The empty vector has no elements. -/
@[simp] theorem elems_empty : (empty : BoundedVec α bound).elems = [] := rfl

/-- A push keeps what there is room for, from the oldest element on, and puts the new
one at the end. In a full vector it is the newest of the old elements that goes. -/
theorem elems_forcePush (hbound : 0 < bound) (v : BoundedVec α bound) (x : α) :
    (v.forcePush x).elems = v.elems.take (bound - 1) ++ [x] := by
  rw [forcePush, dif_pos hbound]

/-- The last element after a push is the one that was pushed. -/
theorem last?_forcePush (hbound : 0 < bound) (v : BoundedVec α bound) (x : α) :
    (v.forcePush x).last? = some x := by
  rw [last?, elems_forcePush hbound, List.getLast?_concat]

/-- What is left of a list that is pushed one by one. -/
def kept (bound : Nat) (xs : List α) : List α :=
  xs.take (bound - 1) ++ (xs.drop (bound - 1)).getLast?.toList

/-- Pushing nothing leaves nothing. -/
@[simp] theorem kept_nil (bound : Nat) : kept bound ([] : List α) = [] := by
  simp [kept]

/-- One more push. The vector keeps its first `bound - 1` elements and the pushed one,
so a full vector replaces its last element instead of the oldest. -/
theorem kept_append_singleton (bound : Nat) (xs : List α) (x : α) :
    kept bound (xs ++ [x]) = (kept bound xs).take (bound - 1) ++ [x] := by
  rcases Nat.lt_or_ge xs.length (bound - 1) with hlt | hge
  · -- There is room for `x` among the first elements.
    have hdrop : xs.drop (bound - 1) = [] := List.drop_of_length_le (Nat.le_of_lt hlt)
    have htake : xs.take (bound - 1) = xs := List.take_of_length_le (Nat.le_of_lt hlt)
    have hshort : (xs ++ [x]).length ≤ bound - 1 := by
      rw [List.length_append, List.length_singleton]
      omega
    simp [kept, hdrop, htake, List.take_of_length_le hshort, List.drop_of_length_le hshort]
  · -- The first elements are complete. `x` takes the place of the last one of the rest.
    have hlen : (xs.take (bound - 1)).length = bound - 1 := by
      rw [List.length_take]
      omega
    have htake : (xs ++ [x]).take (bound - 1) = xs.take (bound - 1) :=
      List.take_append_of_le_length hge
    have hdrop : (xs ++ [x]).drop (bound - 1) = xs.drop (bound - 1) ++ [x] :=
      List.drop_append_of_le_length hge
    rw [kept, kept, htake, hdrop, List.getLast?_concat, List.take_append_of_le_length hlen.ge,
      List.take_of_length_le hlen.le]
    rfl

/-- A vector holds some of the pushed elements, in the order in which they were pushed.
So a property of all pushed elements carries over to the window. -/
theorem kept_sublist (bound : Nat) (xs : List α) : (kept bound xs).Sublist xs := by
  conv_rhs => rw [← List.take_append_drop (bound - 1) xs]
  refine (List.Sublist.refl _).append ?_
  cases h : (xs.drop (bound - 1)).getLast? with
  | none => exact List.nil_sublist _
  | some x => exact List.singleton_sublist.mpr (List.mem_of_getLast? h)

/-- The first one pushed is kept for ever. -/
theorem kept_cons (bound : Nat) (x : α) (xs : List α) :
    kept (bound + 2) (x :: xs) = x :: kept (bound + 1) xs := by
  simp [kept]

/-- The last one pushed is kept, whatever the bound replaces. -/
theorem getLast?_kept (bound : Nat) (xs : List α) : (kept bound xs).getLast? = xs.getLast? := by
  induction xs using List.reverseRecOn with
  | nil => simp
  | append_singleton xs x _ =>
      rw [kept_append_singleton, List.getLast?_concat, List.getLast?_concat]

/-- A list that fits is kept as it is. Only the pushes beyond the bound replace anything. -/
theorem kept_eq_self {bound : Nat} {xs : List α} (h : xs.length ≤ bound) : kept bound xs = xs := by
  rw [kept]
  rcases Nat.lt_or_ge (bound - 1) xs.length with hlt | hge
  · -- The list is exactly full, so the rest is its last element.
    have hone : (xs.drop (bound - 1)).length = 1 := by
      rw [List.length_drop]
      omega
    obtain ⟨x, hx⟩ := List.length_eq_one_iff.mp hone
    rw [hx]
    conv_rhs => rw [← List.take_append_drop (bound - 1) xs, hx]
    rfl
  · rw [List.take_of_length_le hge, List.drop_of_length_le hge]
    simp

end BoundedVec

end ChainAlerter.Library
