import Mathlib

/-!
# `ChainAlerter.Library.EventRun`: runs of a partial step function

A system is a step function `σ → ε → Option σ`: an event either takes a state
to the next one or cannot happen there. `run` is the state after a list of
events, when every one of them could happen. An interleaving of several
parties is a list of events, so a statement about every interleaving is a
statement about every list.

`run_invariant` is the induction rule for the states of a run, and `run_history` the
one for states together with the events that led to them. `exists_run_view` carries runs
over to a system that shows the same steps, and `Shows` those where the events show as
well. `AllSteps` says
that a condition on the state before a step and on its event holds at every
step of a run, and `run_invariant_of_allSteps` is the rule for such runs.
-/

set_option autoImplicit false

namespace ChainAlerter.Library

variable {σ ε : Type}

/-- The state after the events, or `none` when one of them could not happen. -/
def run (step : σ → ε → Option σ) (s : σ) (events : List ε) : Option σ :=
  events.foldlM step s

/-- A run over no events stays where it is. -/
@[simp] theorem run_nil (step : σ → ε → Option σ) (s : σ) : run step s [] = some s := rfl

/-- A run starts with the step on its first event, and fails if that step does. -/
theorem run_cons (step : σ → ε → Option σ) (s : σ) (e : ε) (events : List ε) :
    run step s (e :: events) = (step s e).bind (fun s' => run step s' events) := by
  simp only [run, List.foldlM_cons]
  rfl

/-- A run of one event and more: the first step, and the run from there. -/
theorem run_cons_eq_some {step : σ → ε → Option σ} {s s'' : σ} {e : ε} {events : List ε} :
    run step s (e :: events) = some s'' ↔
      ∃ s', step s e = some s' ∧ run step s' events = some s'' := by
  rw [run_cons, Option.bind_eq_some_iff]

/-- A run over one event is a step. -/
@[simp] theorem run_singleton (step : σ → ε → Option σ) (s : σ) (e : ε) :
    run step s [e] = step s e := by
  rw [run_cons]
  cases step s e <;> rfl

/-- A run of two lists is a run of the first and a run of the second from where it ends. -/
theorem run_append_eq_some {step : σ → ε → Option σ} {s s'' : σ} {before after : List ε} :
    run step s (before ++ after) = some s'' ↔
      ∃ s', run step s before = some s' ∧ run step s' after = some s'' := by
  induction before generalizing s with
  | nil => simp
  | cons e before ih =>
      rw [List.cons_append, run_cons_eq_some]
      constructor
      · rintro ⟨s₁, hstep, hrest⟩
        obtain ⟨s', hbefore, hafter⟩ := ih.mp hrest
        exact ⟨s', run_cons_eq_some.mpr ⟨s₁, hstep, hbefore⟩, hafter⟩
      · rintro ⟨s', hbefore, hafter⟩
        obtain ⟨s₁, hstep, hrest⟩ := run_cons_eq_some.mp hbefore
        exact ⟨s₁, hstep, ih.mpr ⟨s', hrest, hafter⟩⟩

/-- From a state without a step no event happens. A system that has ended makes
empty runs only. -/
theorem run_of_stuck {step : σ → ε → Option σ} {s s' : σ} {events : List ε}
    (hstuck : ∀ e s₁, step s e ≠ some s₁) (hrun : run step s events = some s') :
    events = [] ∧ s' = s := by
  cases events with
  | nil =>
      cases hrun
      exact ⟨rfl, rfl⟩
  | cons e events =>
      obtain ⟨s₁, hs₁, -⟩ := run_cons_eq_some.mp hrun
      exact absurd hs₁ (hstuck e s₁)

/-- What every step preserves, every run preserves. By induction on the events, from the
front, so the state in the middle is the start of a shorter run. -/
theorem run_invariant {step : σ → ε → Option σ} {P : σ → Prop}
    (hstep : ∀ s e s', P s → step s e = some s' → P s') :
    ∀ (events : List ε) (s s' : σ), P s → run step s events = some s' → P s' := by
  intro events
  induction events with
  | nil =>
      intro s s' hs hrun
      cases hrun
      exact hs
  | cons e events ih =>
      intro s s' hs hrun
      obtain ⟨s₁, hs₁, hrest⟩ := run_cons_eq_some.mp hrun
      exact ih s₁ s' (hstep s e s₁ hs hs₁) hrest

/-- When each step shows, in a view of the state, as a run of another system, so does
each run. A step may show as no step at all, or as several, and these runs are put one
behind the other. -/
theorem exists_run_view {τ δ : Type} {step : σ → ε → Option σ} {step' : τ → δ → Option τ}
    (view : σ → τ)
    (hstep : ∀ s e s', step s e = some s' →
      ∃ events', run step' (view s) events' = some (view s')) :
    ∀ (events : List ε) (s s' : σ), run step s events = some s' →
      ∃ events', run step' (view s) events' = some (view s') := by
  intro events
  induction events with
  | nil =>
      intro s s' hrun
      cases hrun
      exact ⟨[], rfl⟩
  | cons e events ih =>
      intro s s' hrun
      obtain ⟨s₁, hs₁, hrest⟩ := run_cons_eq_some.mp hrun
      -- A step may show as no step, as one or as several.
      obtain ⟨first, hfirst⟩ := hstep s e s₁ hs₁
      obtain ⟨rest, hrest'⟩ := ih s₁ s' hrest
      exact ⟨first ++ rest, run_append_eq_some.mpr ⟨view s₁, hfirst, hrest'⟩⟩

/-- What holds at every element of a list and of what stands before it holds so for one
element more, if it holds at that element. -/
theorem forall_split_append_singleton {P : List ε → ε → Prop} {events : List ε} {e : ε} :
    (∀ before e' after, events ++ [e] = before ++ e' :: after → P before e') ↔
      (∀ before e' after, events = before ++ e' :: after → P before e') ∧ P events e := by
  constructor
  · intro h
    exact ⟨fun before e' after hsplit => h before e' (after ++ [e]) (by rw [hsplit]; simp),
      h events e [] rfl⟩
  · rintro ⟨hevents, he⟩ before e' after hsplit
    -- Either the split is at the new element, or the new element ends `after`.
    rcases List.eq_nil_or_concat after with rfl | ⟨after, last, rfl⟩
    · obtain ⟨rfl, hlast⟩ := List.append_inj' hsplit rfl
      rw [← List.singleton_injective hlast]
      exact he
    · rw [List.concat_eq_append, ← List.cons_append, ← List.append_assoc] at hsplit
      obtain ⟨hbefore, -⟩ := List.append_inj' hsplit rfl
      exact hevents before e' after hbefore

/-- The rule for what a state has to do with the events that led to it: it holds of no
events, and a step carries it over to one event more. -/
theorem run_history {step : σ → ε → Option σ} {s₀ : σ} {P : List ε → σ → Prop} (hnil : P [] s₀)
    (hstep : ∀ events s e s', run step s₀ events = some s → P events s → step s e = some s' →
      P (events ++ [e]) s') :
    ∀ (events : List ε) (s : σ), run step s₀ events = some s → P events s := by
  intro events
  -- From the end, since `P` speaks of all the events up to the state.
  induction events using List.reverseRecOn with
  | nil =>
      intro s hrun
      cases hrun
      exact hnil
  | append_singleton events e ih =>
      intro s' hrun
      obtain ⟨s, hbefore, hlast⟩ := run_append_eq_some.mp hrun
      rw [run_singleton] at hlast
      exact hstep events s e s' hbefore (ih s hbefore) hlast

/-- The condition `C` holds at every step of the run of `events` from `s`. -/
def AllSteps (step : σ → ε → Option σ) (C : σ → ε → Prop) : σ → List ε → Prop
  | _, [] => True
  | s, e :: events => C s e ∧ ∀ s', step s e = some s' → AllSteps step C s' events

instance decidableAllSteps (step : σ → ε → Option σ) (C : σ → ε → Prop)
    [∀ s e, Decidable (C s e)] : ∀ s events, Decidable (AllSteps step C s events)
  | _, [] => isTrue trivial
  | s, e :: events =>
      match h : step s e with
      | none => decidable_of_iff (C s e) ⟨fun hC => ⟨hC, fun s' hs' => by rw [h] at hs'; cases hs'⟩,
          And.left⟩
      | some s₁ =>
          have := decidableAllSteps step C s₁ events
          decidable_of_iff (C s e ∧ AllSteps step C s₁ events)
            ⟨fun hC => ⟨hC.1, fun s' hs' => by rw [h] at hs'; cases hs'; exact hC.2⟩,
             fun hC => ⟨hC.1, hC.2 s₁ h⟩⟩

/-- A condition on every step of a run can be replaced by a weaker one. -/
theorem AllSteps.imp {step : σ → ε → Option σ} {C D : σ → ε → Prop}
    (himp : ∀ s e, C s e → D s e) :
    ∀ {events : List ε} {s : σ}, AllSteps step C s events → AllSteps step D s events := by
  intro events
  induction events with
  | nil => intro s _; trivial
  | cons e events ih =>
      intro s h
      exact ⟨himp s e h.1, fun s' hs' => ih (h.2 s' hs')⟩

/-- A condition at every step and one on all the events are one condition at every step.
The second one does not depend on the states that the run goes through. -/
theorem AllSteps.and_mem {step : σ → ε → Option σ} {C : σ → ε → Prop} {D : ε → Prop} :
    ∀ {events : List ε} {s : σ}, AllSteps step C s events → (∀ e ∈ events, D e) →
      AllSteps step (fun s e => C s e ∧ D e) s events := by
  intro events
  induction events with
  | nil => intro s _ _; trivial
  | cons e events ih =>
      intro s h hD
      refine ⟨⟨h.1, hD e List.mem_cons_self⟩, fun s' hs' => ?_⟩
      exact ih (h.2 s' hs') fun e' he' => hD e' (List.mem_cons_of_mem _ he')

/-- What every step under the condition preserves, every run under the condition preserves. -/
theorem run_invariant_of_allSteps {step : σ → ε → Option σ} {C : σ → ε → Prop}
    {P : σ → Prop} (hstep : ∀ s e s', P s → C s e → step s e = some s' → P s') :
    ∀ (events : List ε) (s s' : σ), P s → AllSteps step C s events →
      run step s events = some s' → P s' := by
  intro events
  induction events with
  | nil =>
      intro s s' hs _ hrun
      cases hrun
      exact hs
  | cons e events ih =>
      intro s s' hs hall hrun
      obtain ⟨s₁, hs₁, hrest⟩ := run_cons_eq_some.mp hrun
      exact ih s₁ s' (hstep s e s₁ hs hall.1 hs₁) (hall.2 s₁ hs₁) hrest

/-- A condition at every step of two runs, one after the other. The second part only
counts when the first one goes through. -/
theorem allSteps_append_iff {step : σ → ε → Option σ} {C : σ → ε → Prop} {s : σ}
    {before after : List ε} :
    AllSteps step C s (before ++ after) ↔
      AllSteps step C s before ∧
        ∀ s', run step s before = some s' → AllSteps step C s' after := by
  induction before generalizing s with
  | nil => simp [AllSteps]
  | cons e before ih =>
      constructor
      · rintro ⟨hC, hrest⟩
        refine ⟨⟨hC, fun s₁ hs₁ => (ih.mp (hrest s₁ hs₁)).1⟩, fun s' hrun => ?_⟩
        obtain ⟨s₁, hs₁, hrun'⟩ := run_cons_eq_some.mp hrun
        exact (ih.mp (hrest s₁ hs₁)).2 s' hrun'
      · rintro ⟨⟨hC, hbefore⟩, hafter⟩
        refine ⟨hC, fun s₁ hs₁ => ih.mpr ⟨hbefore s₁ hs₁, fun s' hrun => ?_⟩⟩
        exact hafter s' (run_cons_eq_some.mpr ⟨s₁, hs₁, hrun⟩)

/-- A condition at every step is a condition at the end of every proper prefix. The
recursive form is the one for inductions, and this one is the one to read. -/
theorem allSteps_iff {step : σ → ε → Option σ} {C : σ → ε → Prop} {s : σ}
    {events : List ε} :
    AllSteps step C s events ↔
      ∀ before e after s', events = before ++ e :: after →
        run step s before = some s' → C s' e := by
  induction events generalizing s with
  | nil => simp [AllSteps]
  | cons e events ih =>
      constructor
      · rintro ⟨hC, hrest⟩ before e' after s' hsplit hrun
        cases before with
        | nil =>
            simp only [List.nil_append, List.cons.injEq] at hsplit
            cases hrun
            rw [← hsplit.1]
            exact hC
        | cons d before =>
            simp only [List.cons_append, List.cons.injEq] at hsplit
            obtain ⟨rfl, rfl⟩ := hsplit
            obtain ⟨s₁, hs₁, hrun'⟩ := run_cons_eq_some.mp hrun
            exact ih.mp (hrest s₁ hs₁) before e' after s' rfl hrun'
      · intro h
        refine ⟨h [] e events s rfl rfl, fun s₁ hs₁ => ih.mpr ?_⟩
        intro before e' after s' hsplit hrun
        exact h (e :: before) e' after s' (by rw [hsplit, List.cons_append])
          (run_cons_eq_some.mpr ⟨s₁, hs₁, hrun⟩)

/-- The steps that a system has in common with a larger one are a run of the larger one.
The events that are not in common are left out by `C`. -/
theorem run_map {τ δ : Type} {step : σ → ε → Option σ} {step' : τ → δ → Option τ} {C : ε → Prop}
    (embed : σ → τ) (f : ε → δ)
    (hstep : ∀ s e s', C e → step s e = some s' → step' (embed s) (f e) = some (embed s')) :
    ∀ (events : List ε) (s s' : σ), (∀ e ∈ events, C e) → run step s events = some s' →
      run step' (embed s) (events.map f) = some (embed s') := by
  intro events
  induction events with
  | nil =>
      intro s s' _ hrun
      cases hrun
      rfl
  | cons e events ih =>
      intro s s' hC hrun
      obtain ⟨s₁, hs₁, hrest⟩ := run_cons_eq_some.mp hrun
      rw [List.map_cons, run_cons_eq_some]
      refine ⟨embed s₁, hstep s e s₁ (hC e List.mem_cons_self) hs₁, ?_⟩
      exact ih s₁ s' (fun e' he' => hC e' (List.mem_cons_of_mem _ he')) hrest

/-- A system that can lower a measure while it is not zero can bring it to
zero. By strong induction on the measure, and with an invariant that the steps
keep on the way. -/
theorem exists_run_of_measure {step : σ → ε → Option σ} {P : σ → Prop} {C : ε → Prop}
    (measure : σ → Nat)
    (hprogress : ∀ s, P s → measure s ≠ 0 →
      ∃ e s', C e ∧ step s e = some s' ∧ P s' ∧ measure s' < measure s) :
    ∀ s, P s → ∃ events s', (∀ e ∈ events, C e) ∧ run step s events = some s' ∧ P s' ∧
      measure s' = 0 := by
  intro s
  induction hn : measure s using Nat.strong_induction_on generalizing s with
  | _ n ih =>
      intro hs
      by_cases hzero : measure s = 0
      · exact ⟨[], s, fun e he => (by cases he), rfl, hs, hzero⟩
      · obtain ⟨e, s₁, he, hstep, hs₁, hlt⟩ := hprogress s hs hzero
        obtain ⟨events, s', hevents, hrun, hs', hdone⟩ := ih (measure s₁) (hn ▸ hlt) s₁ rfl hs₁
        refine ⟨e :: events, s', ?_, run_cons_eq_some.mpr ⟨s₁, hstep, hrun⟩, hs', hdone⟩
        intro e' he'
        rcases List.mem_cons.mp he' with rfl | he'
        · exact he
        · exact hevents e' he'

section
variable {τ δ : Type}

/-- A system shows as another one: an event is one of it, which takes the view to the
next one, or leaves the view as it is. -/
def Shows (step : σ → ε → Option σ) (step' : τ → δ → Option τ) (view : σ → τ)
    (f : ε → Option δ) : Prop :=
  ∀ s e s', step s e = some s' →
    match f e with
    | some d => step' (view s) d = some (view s')
    | none => view s' = view s

/-- A run is seen through a view as a run of the viewed system, on the events that
the view shows. -/
theorem Shows.run {step : σ → ε → Option σ} {step' : τ → δ → Option τ} {view : σ → τ}
    {f : ε → Option δ} (h : Shows step step' view f) :
    ∀ (events : List ε) (s s' : σ), run step s events = some s' →
      run step' (view s) (events.filterMap f) = some (view s') := by
  intro events
  induction events with
  | nil =>
      intro s s' hrun
      cases hrun
      rfl
  | cons e events ih =>
      intro s s' hrun
      obtain ⟨s₁, hs₁, hrest⟩ := run_cons_eq_some.mp hrun
      have hview := h s e s₁ hs₁
      cases hf : f e with
      | none =>
          rw [hf] at hview
          rw [List.filterMap_cons_none hf, ← hview]
          exact ih s₁ s' hrest
      | some d =>
          rw [hf] at hview
          rw [List.filterMap_cons_some hf, run_cons_eq_some]
          exact ⟨view s₁, hview, ih s₁ s' hrest⟩

/-- A condition on the steps of the viewed system holds along its run, if it holds of
each shown event along the run itself. It carries conditions on one component over from
the whole system. -/
theorem Shows.allSteps {step : σ → ε → Option σ} {step' : τ → δ → Option τ} {view : σ → τ}
    {f : ε → Option δ} (h : Shows step step' view f) {C : τ → δ → Prop} :
    ∀ (events : List ε) (s s' : σ), Library.run step s events = some s' →
      AllSteps step (fun s e => ∀ d, f e = some d → C (view s) d) s events →
      AllSteps step' C (view s) (events.filterMap f) := by
  intro events
  induction events with
  | nil =>
      intro s s' _ _
      trivial
  | cons e events ih =>
      intro s s' hrun hall
      obtain ⟨s₁, hs₁, hrest⟩ := run_cons_eq_some.mp hrun
      have hview := h s e s₁ hs₁
      have hlater := ih s₁ s' hrest (hall.2 s₁ hs₁)
      cases hf : f e with
      | none =>
          rw [hf] at hview
          rw [List.filterMap_cons_none hf, ← hview]
          exact hlater
      | some d =>
          rw [hf] at hview
          rw [List.filterMap_cons_some hf]
          refine ⟨hall.1 d hf, fun t ht => ?_⟩
          rw [hview] at ht
          cases ht
          exact hlater

end

end ChainAlerter.Library
