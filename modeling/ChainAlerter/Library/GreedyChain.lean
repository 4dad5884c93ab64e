import Mathlib

/-!
# `ChainAlerter.Library.GreedyChain`: the greedy chain of a list

Elements arrive one by one. The first one is taken, and after it each element
that follows the last one taken; all others are dropped. `greedy follows last xs`
is the list of those taken, when `last` was taken before.

What is taken is a chain of the relation (`isChain_greedy`), and the last one taken is
all that a later arrival depends on (`greedy_append`).

Taking the first follower is no loss when it does not matter which one is taken:
`forall₂_greedy` says that then no other chain is longer or takes an element earlier.
-/

set_option autoImplicit false

namespace ChainAlerter.Library

variable {α : Type} (follows : α → α → Prop)

/-- Whether `x` is taken after `last`. -/
def Takes (last : Option α) (x : α) : Prop := ∀ l ∈ last, follows l x

/-- The first element is taken, whatever it is. -/
@[simp] theorem takes_none (x : α) : Takes follows none x := fun _ h => by cases h

/-- After the first one, an element is taken exactly when it follows the last one taken. -/
@[simp] theorem takes_some {l x : α} : Takes follows (some l) x ↔ follows l x :=
  ⟨fun h => h l rfl, fun h _ hl => by cases hl; exact h⟩

variable [DecidableRel follows]

instance (last : Option α) (x : α) : Decidable (Takes follows last x) :=
  match last with
  | none => isTrue fun _ h => by cases h
  | some l => decidable_of_iff (follows l x) (takes_some follows).symm

/-- The elements taken of `xs`, after `last`. -/
def greedy : Option α → List α → List α
  | _, [] => []
  | last, x :: xs => if Takes follows last x then x :: greedy (some x) xs else greedy last xs

/-- The last element taken. -/
def lastTaken (last : Option α) (xs : List α) : Option α :=
  (greedy follows last xs).getLast?.or last

variable {follows}

/-- From nothing, nothing is taken. -/
@[simp] theorem greedy_nil (last : Option α) : greedy follows last [] = [] := rfl

/-- An element that is taken becomes the last one, and the choice goes on from it. -/
theorem greedy_cons_of_takes {last : Option α} {x : α} (h : Takes follows last x) (xs : List α) :
    greedy follows last (x :: xs) = x :: greedy follows (some x) xs := by
  rw [greedy, if_pos h]

/-- An element that does not follow is passed over, and leaves no trace in what
is taken later. -/
theorem greedy_cons_of_not_takes {last : Option α} {x : α} (h : ¬ Takes follows last x)
    (xs : List α) : greedy follows last (x :: xs) = greedy follows last xs := by
  rw [greedy, if_neg h]

/-- The last element taken, after an element that is taken. -/
theorem lastTaken_cons_of_takes {last : Option α} {x : α} (h : Takes follows last x)
    (xs : List α) : lastTaken follows last (x :: xs) = lastTaken follows (some x) xs := by
  rw [lastTaken, lastTaken, greedy_cons_of_takes h, List.getLast?_cons]
  cases (greedy follows (some x) xs).getLast? <;> rfl

/-- The last element taken, after an element that is passed over. -/
theorem lastTaken_cons_of_not_takes {last : Option α} {x : α} (h : ¬ Takes follows last x)
    (xs : List α) : lastTaken follows last (x :: xs) = lastTaken follows last xs := by
  rw [lastTaken, lastTaken, greedy_cons_of_not_takes h]

/-- Later arrivals depend on the earlier ones through the last element taken, and
through nothing else. So a loop that remembers this element can continue the chain. -/
theorem greedy_append (last : Option α) (xs ys : List α) :
    greedy follows last (xs ++ ys) =
      greedy follows last xs ++ greedy follows (lastTaken follows last xs) ys := by
  induction xs generalizing last with
  | nil => rfl
  | cons x xs ih =>
      -- Over all `last`: an element that is taken becomes the last one for the rest.
      by_cases h : Takes follows last x
      · rw [List.cons_append, greedy_cons_of_takes h, greedy_cons_of_takes h,
          lastTaken_cons_of_takes h, ih, List.cons_append]
      · rw [List.cons_append, greedy_cons_of_not_takes h, greedy_cons_of_not_takes h,
          lastTaken_cons_of_not_takes h, ih]

/-- The elements taken are among those that arrive, in their order. None is taken twice
unless it arrives twice. -/
theorem greedy_sublist (last : Option α) (xs : List α) : (greedy follows last xs).Sublist xs := by
  induction xs generalizing last with
  | nil => exact List.Sublist.refl _
  | cons x xs ih =>
      by_cases h : Takes follows last x
      · rw [greedy_cons_of_takes h]
        exact (ih (some x)).cons_cons x
      · rw [greedy_cons_of_not_takes h]
        exact (ih last).cons x

/-- The elements taken are a chain, and the first of them follows `last`. An arrival is
taken exactly when it follows the one before it. -/
theorem isChain_greedy (last : Option α) (xs : List α) :
    (last.toList ++ greedy follows last xs).IsChain follows := by
  induction xs generalizing last with
  | nil => cases last <;> simp
  | cons x xs ih =>
      by_cases h : Takes follows last x
      · rw [greedy_cons_of_takes h]
        -- After `x` the chain goes on from `x`, and the link before it is the reason it was
        -- taken.
        have hrest : (x :: greedy follows (some x) xs).IsChain follows := ih (some x)
        cases last with
        | none => exact hrest
        | some l => exact List.isChain_cons_cons.mpr ⟨(takes_some follows).mp h, hrest⟩
      · rw [greedy_cons_of_not_takes h]
        exact ih last

/-- The elements taken, seen through a function on which the relation depends. So data
that travels with the elements does not change what is taken. -/
theorem map_greedy {β : Type} (f : β → α) (r : β → β → Prop) [DecidableRel r]
    (hr : ∀ a b, r a b ↔ follows (f a) (f b)) (last : Option β) (xs : List β) :
    (greedy r last xs).map f = greedy follows (last.map f) (xs.map f) := by
  have htakes : ∀ last x, Takes r last x ↔ Takes follows (last.map f) (f x) := by
    intro last x
    cases last with
    | none => simp
    | some l => simp [hr]
  induction xs generalizing last with
  | nil => rfl
  | cons x xs ih =>
      rw [List.map_cons]
      by_cases h : Takes r last x
      · rw [greedy_cons_of_takes h, greedy_cons_of_takes ((htakes last x).mp h), List.map_cons, ih]
        rfl
      · rw [greedy_cons_of_not_takes h, greedy_cons_of_not_takes (mt (htakes last x).mpr h), ih]

/-! ### The greedy chain is the longest one, and the earliest

When all followers of an element have the same followers, there is nothing to choose but
where to take them. -/

/-- The greedy chain after `l` is ahead of every chain after `l` among the same
elements. By induction on the arrivals: an element that the other chain takes is taken
here as well, or one in its place was taken before, and `hsame` lets either chain go
on from there. -/
theorem forall₂_greedy
    (hsame : ∀ a b b' c, follows a b → follows a b' → follows b c → follows b' c)
    {position : α → Nat} {l : α} {xs ys : List α}
    (hincreasing : xs.Pairwise fun a b => position a ≤ position b) (hsublist : ys.Sublist xs)
    (hchain : (l :: ys).IsChain follows) :
    List.Forall₂ (fun x y => position x ≤ position y)
      ((greedy follows (some l) xs).take ys.length) ys := by
  induction xs generalizing l ys with
  | nil =>
      rw [List.sublist_nil.mp hsublist]
      exact .nil
  | cons x xs ih =>
      obtain ⟨hfirst, hincreasing'⟩ := List.pairwise_cons.mp hincreasing
      cases ys with
      | nil => exact .nil
      | cons y ys =>
          obtain ⟨hly, hys⟩ := List.isChain_cons_cons.mp hchain
          by_cases hlx : follows l x
          · -- `x` is taken. What comes after `y` comes after `x`.
            rw [greedy_cons_of_takes ((takes_some follows).mpr hlx), List.length_cons,
              List.take_succ_cons]
            have hrest : ys.Sublist xs := by
              cases hsublist with
              | cons _ h => exact (List.sublist_cons_self y ys).trans h
              | cons_cons _ h => exact h
            have hys' : (x :: ys).IsChain follows := by
              cases ys with
              | nil => exact .singleton x
              | cons z ys =>
                  obtain ⟨hyz, hzs⟩ := List.isChain_cons_cons.mp hys
                  exact List.isChain_cons_cons.mpr ⟨hsame l y x z hly hlx hyz, hzs⟩
            have hle : position x ≤ position y := by
              cases hsublist with
              | cons _ h => exact hfirst y (h.subset List.mem_cons_self)
              | cons_cons _ _ => exact Nat.le_refl _
            exact .cons hle (ih hincreasing' hrest hys')
          · -- `x` is not taken, and it is not `y`.
            rw [greedy_cons_of_not_takes (mt (takes_some follows).mp hlx)]
            have hrest : (y :: ys).Sublist xs := by
              cases hsublist with
              | cons _ h => exact h
              | cons_cons _ _ => exact absurd hly hlx
            exact ih hincreasing' hrest hchain

end ChainAlerter.Library
