import Mathlib

/-!
# `ChainAlerter.Library.WhileLoop`: loops that end

The round of a loop is a function `σ → Option σ`: it takes the state to the next one,
or ends the loop. `Halts round s final` says that the loop ends when it starts in `s`,
and that it ends in `final`. It is an inductive relation, so a loop that goes on for
ever has no final state.

`exists_halts_of_measure` is the rule for loops whose rounds make something smaller.
-/

set_option autoImplicit false

namespace ChainAlerter.Library

variable {σ : Type} {round : σ → Option σ}

/-- The loop ends in `final`. -/
inductive Halts (round : σ → Option σ) : σ → σ → Prop where
  | done {s : σ} (h : round s = none) : Halts round s s
  | next {s s' final : σ} (h : round s = some s') (rest : Halts round s' final) :
      Halts round s final

/-- A loop whose rounds decrease a measure ends. By strong induction on the measure,
since a round may lower it by more than one. -/
theorem exists_halts_of_measure (measure : σ → Nat)
    (hround : ∀ s s', round s = some s' → measure s' < measure s) (s : σ) :
    ∃ final, Halts round s final := by
  induction hs : measure s using Nat.strong_induction_on generalizing s with
  | _ n ih =>
      cases hnext : round s with
      | none => exact ⟨s, .done hnext⟩
      | some s' =>
          have hlt := hround s s' hnext
          rw [hs] at hlt
          obtain ⟨final, hfinal⟩ := ih (measure s') hlt s' rfl
          exact ⟨final, .next hnext hfinal⟩

/-- A function that the rounds do not change, and that is `f` where the loop ends, is
`f` of the final state. -/
theorem Halts.eq_of_rounds {τ : Type} {g f : σ → τ} {s final : σ} (h : Halts round s final)
    (hdone : ∀ s, round s = none → g s = f s)
    (hnext : ∀ s s', round s = some s' → g s = g s') : g s = f final := by
  induction h with
  | done h => exact hdone _ h
  | next h _ ih => rw [hnext _ _ h, ih]

end ChainAlerter.Library
