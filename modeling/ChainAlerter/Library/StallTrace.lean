import ChainAlerter.Library.EventRun

/-!
# `ChainAlerter.Library.StallTrace`: stalls and recoveries

A monitor announces stalls and recoveries, each with a duration. `Closed` says
that every recovery closes an announced stall: the mark right before it is a
stall with its duration. So between two recoveries there is a stall, and the last
stall before a recovery has the recovery's duration.

`pending` is the duration of the stall that a recovery would close now. A monitor
remembers a duration of its own, and `StallStep` lists what a round may do to it and
to the trace. As long as every timeout is announced, what it remembers is what is
pending (`StallStep.tracked`), and the trace stays closed.
-/

set_option autoImplicit false

namespace ChainAlerter.Library

/-- An alert, as far as stalls and recoveries are concerned. Each carries the duration
that it announces. -/
inductive Mark where
  | stall (duration : Nat)
  | recovery (duration : Nat)
  deriving DecidableEq, Repr

/-- Every recovery stands right after a stall with the same duration. -/
def Closed (trace : List Mark) : Prop :=
  ∀ before mark after, trace = before ++ mark :: after →
    ∀ duration, mark = .recovery duration → before.getLast? = some (.stall duration)

/-- The stall that no recovery has closed. -/
def pending (trace : List Mark) : Option Nat :=
  match trace.getLast? with
  | some (.stall duration) => some duration
  | _ => none

/-- After a stall, that stall is the pending one. -/
@[simp] theorem pending_append_stall (trace : List Mark) (duration : Nat) :
    pending (trace ++ [.stall duration]) = some duration := by
  simp [pending]

/-- After a recovery, no stall is pending. -/
@[simp] theorem pending_append_recovery (trace : List Mark) (duration : Nat) :
    pending (trace ++ [.recovery duration]) = none := by
  simp [pending]

/-- A stall is pending exactly when it is the last mark, since a recovery ends it and a
later stall takes its place. -/
theorem pending_eq_some_iff {trace : List Mark} {duration : Nat} :
    pending trace = some duration ↔ trace.getLast? = some (.stall duration) := by
  unfold pending
  split
  · rename_i d hlast
    rw [hlast, Option.some.injEq, Option.some.injEq, Mark.stall.injEq]
  · rename_i hlast
    exact iff_of_false (fun h => by cases h) (hlast duration)

/-- Without marks there is no recovery that lacks its stall. -/
@[simp] theorem closed_nil : Closed [] := by
  intro before mark after h
  simp at h

/-- One mark more: only a recovery has to close something. -/
theorem closed_append_singleton {trace : List Mark} {mark : Mark} :
    Closed (trace ++ [mark]) ↔
      Closed trace ∧ ∀ duration, mark = .recovery duration →
        trace.getLast? = some (.stall duration) :=
  forall_split_append_singleton

/-- A stall at the end opens nothing that was closed. -/
@[simp] theorem closed_append_stall {trace : List Mark} {duration : Nat} :
    Closed (trace ++ [.stall duration]) ↔ Closed trace := by
  rw [closed_append_singleton]
  exact ⟨And.left, fun h => ⟨h, fun _ hmark => by cases hmark⟩⟩

/-- A recovery at the end is in order exactly when it closes the pending stall, with
its duration. -/
@[simp] theorem closed_append_recovery {trace : List Mark} {duration : Nat} :
    Closed (trace ++ [.recovery duration]) ↔
      Closed trace ∧ pending trace = some duration := by
  rw [closed_append_singleton, pending_eq_some_iff]
  refine and_congr_right fun _ => ⟨fun h => h duration rfl, fun h d hmark => ?_⟩
  cases hmark
  exact h

/-! ### Monitors -/

/-- What a monitor remembers of a stall, and its trace. -/
structure StallState where
  fired : Option Nat
  trace : List Mark

/-- What a round may do: nothing, a timeout that is announced or is not, or a recovery,
which is announced when a timeout is remembered. -/
inductive StallStep (s : StallState) : StallState → Prop where
  | quiet : StallStep s s
  | stall (duration : Nat) :
      StallStep s { fired := some duration, trace := s.trace ++ [.stall duration] }
  | silent (duration : Nat) : StallStep s { s with fired := some duration }
  | recover : StallStep s { fired := none, trace := s.trace ++ (s.fired.map .recovery).toList }

/-- The trace is closed, and what is remembered is what is pending. -/
structure StallState.Tracked (s : StallState) : Prop where
  closed : Closed s.trace
  fired : pending s.trace = s.fired

/-- At the start nothing is remembered, and nothing is pending. -/
theorem StallState.tracked_init : StallState.Tracked { fired := none, trace := [] } :=
  ⟨closed_nil, rfl⟩

/-- A round keeps the state tracked, unless it is a timeout that is not announced. That
one is remembered with no mark for it, and is what the exception describes. -/
theorem StallStep.tracked {s s' : StallState} (hstep : StallStep s s') (h : s.Tracked) :
    s'.Tracked ∨ ∃ duration, s' = { s with fired := some duration } := by
  cases hstep with
  | quiet => exact Or.inl h
  | stall duration =>
      exact Or.inl ⟨closed_append_stall.mpr h.closed, pending_append_stall _ _⟩
  -- The duration is remembered, and nothing is pending for it.
  | silent duration => exact Or.inr ⟨duration, rfl⟩
  | recover =>
      -- What the recovery announces is what is remembered, and that is what is pending.
      refine Or.inl ?_
      obtain ⟨fired, trace⟩ := s
      obtain ⟨hclosed, hfired⟩ := h
      cases fired with
      | none => exact ⟨by simpa using hclosed, by simpa using hfired⟩
      | some duration =>
          exact ⟨closed_append_recovery.mpr ⟨hclosed, hfired⟩, pending_append_recovery _ _⟩

/-- A pending stall is remembered. A mark is only made together with what is remembered,
and both go with the same recovery. -/
theorem StallStep.fired_of_pending {s s' : StallState} (hstep : StallStep s s')
    (h : pending s.trace ≠ none → s.fired ≠ none) : pending s'.trace ≠ none → s'.fired ≠ none := by
  cases hstep with
  | quiet => exact h
  | stall duration => exact fun _ => Option.some_ne_none _
  | silent duration => exact fun _ => Option.some_ne_none _
  | recover =>
      cases hfired : s.fired with
      | none => simpa [hfired] using h
      | some duration => simp

/-- A recovery without a stall is never undone. The marks behind it do not change what
came before them. -/
theorem StallStep.not_closed {s s' : StallState} (hstep : StallStep s s')
    (h : ¬ Closed s.trace) : ¬ Closed s'.trace := by
  cases hstep with
  | quiet => exact h
  | stall duration => exact fun hclosed => h (closed_append_stall.mp hclosed)
  | silent duration => exact h
  | recover =>
      cases hfired : s.fired with
      | none => simpa [hfired] using h
      | some duration => exact fun hclosed => h (closed_append_recovery.mp hclosed).1

/-! ### Durations -/

/-- A duration that grows by a step each time, up to a bound. -/
theorem min_add_mul_succ (bound base step count : Nat) :
    min (min (base + count * step) bound + step) bound = min (base + (count + 1) * step) bound := by
  rw [Nat.succ_mul]
  omega

end ChainAlerter.Library
