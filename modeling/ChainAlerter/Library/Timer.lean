import ChainAlerter.Library.EventRun

/-!
# `ChainAlerter.Library.Timer`: a loop that waits with a timeout

Each round of the loop arms a timer and waits for a message. The message ends the
wait if it comes in time, and otherwise the timer does, exactly `timeout` after
it was armed. A round takes no time, so the timer of the next round is armed when
the wait ends. When a message arrives at the very instant of the timeout, either
may come first.

So time passes only in the waits: `timeout` in one that the timer ends, and less
or as much in one that a message ends. `armedAt_eq_iff` says that the timers
account for all of it exactly when no message ends a wait that has already taken
time.
-/

set_option autoImplicit false

namespace ChainAlerter.Library

/-- A loop between two rounds: its state, and when its timer was armed. -/
structure Armed (σ : Type) where
  state : σ
  armedAt : Nat

/-- What ends a wait: a message that arrives, or the timer. -/
inductive TimedEvent (μ : Type) where
  | arrive (time : Nat) (message : μ)
  | fire

section
variable {σ ε μ : Type}

/-- The event of the loop that ends the wait. -/
def TimedEvent.event (recv : μ → ε) (elapsed : ε) : TimedEvent μ → ε
  | .arrive _ message => recv message
  | .fire => elapsed

/-- A round of the loop with its time. -/
def timedStep (timeout : Nat) (step : σ → ε → Option σ) (recv : μ → ε) (elapsed : ε)
    (a : Armed σ) : TimedEvent μ → Option (Armed σ)
  | .arrive time message =>
      if a.armedAt ≤ time ∧ time ≤ a.armedAt + timeout then
        (step a.state (recv message)).map (fun state => { state := state, armedAt := time })
      else none
  | .fire =>
      (step a.state elapsed).map
        (fun state => { state := state, armedAt := a.armedAt + timeout })

/-- How often the timer fires. -/
def fires (events : List (TimedEvent μ)) : Nat :=
  events.countP fun e => match e with | .fire => true | .arrive _ _ => false

/-- The event is no message that ends a wait which has taken time. -/
def Prompt (a : Armed σ) (e : TimedEvent μ) : Prop :=
  ∀ time message, e = .arrive time message → time = a.armedAt

/-- Without events the timer has not fired. -/
@[simp] theorem fires_nil : fires ([] : List (TimedEvent μ)) = 0 := rfl

/-- A message is no timeout. -/
@[simp] theorem fires_arrive (time : Nat) (message : μ) (events : List (TimedEvent μ)) :
    fires (.arrive time message :: events) = fires events := by
  simp [fires]

/-- A timeout counts once. -/
@[simp] theorem fires_fire (events : List (TimedEvent μ)) :
    fires (.fire :: events) = fires events + 1 := by
  simp [fires]

/-- The timeouts of two parts of a run add up. -/
@[simp] theorem fires_append (before after : List (TimedEvent μ)) :
    fires (before ++ after) = fires before + fires after := by
  simp [fires]

/-- A run stops at every number of timeouts on its way. The count starts at zero and
rises by one, so it leaves out no number. -/
theorem exists_split_fires {events : List (TimedEvent μ)} {count : Nat} (h : count ≤ fires events) :
    ∃ before after, events = before ++ after ∧ fires before = count := by
  induction events generalizing count with
  | nil =>
      refine ⟨[], [], rfl, ?_⟩
      simp only [fires_nil] at h ⊢
      omega
  | cons e events ih =>
      cases e with
      | arrive time message =>
          rw [fires_arrive] at h
          obtain ⟨before, after, rfl, hcount⟩ := ih h
          exact ⟨.arrive time message :: before, after, rfl, by simpa using hcount⟩
      | fire =>
          rw [fires_fire] at h
          -- The split for no timeouts is before the first one.
          cases count with
          | zero => exact ⟨[], .fire :: events, rfl, rfl⟩
          | succ count =>
              obtain ⟨before, after, rfl, hcount⟩ := ih (Nat.le_of_succ_le_succ h)
              exact ⟨.fire :: before, after, rfl, by simp [hcount]⟩

variable {timeout : Nat} {step : σ → ε → Option σ} {recv : μ → ε} {elapsed : ε}
  {a a' : Armed σ}

/-- A message is taken if it comes while the timer runs, and the next timer is armed
when it comes. -/
theorem timedStep_arrive_eq_some {time : Nat} {message : μ} :
    timedStep timeout step recv elapsed a (.arrive time message) = some a' ↔
      a.armedAt ≤ time ∧ time ≤ a.armedAt + timeout ∧ step a.state (recv message) = some a'.state ∧
        a'.armedAt = time := by
  obtain ⟨state', armedAt'⟩ := a'
  rw [timedStep]
  split
  · rename_i h
    simp only [Option.map_eq_some_iff, Armed.mk.injEq]
    constructor
    · rintro ⟨state, hstate, rfl, rfl⟩
      exact ⟨h.1, h.2, hstate, rfl⟩
    · rintro ⟨-, -, hstate, rfl⟩
      exact ⟨state', hstate, rfl, rfl⟩
  · rename_i h
    exact iff_of_false (fun h => by cases h) fun h' => h ⟨h'.1, h'.2.1⟩

/-- A timeout takes exactly its time, and the next timer is armed when it fires. -/
theorem timedStep_fire_eq_some :
    timedStep timeout step recv elapsed a .fire = some a' ↔
      step a.state elapsed = some a'.state ∧ a'.armedAt = a.armedAt + timeout := by
  obtain ⟨state', armedAt'⟩ := a'
  simp only [timedStep, Option.map_eq_some_iff, Armed.mk.injEq]
  constructor
  · rintro ⟨state, hstate, rfl, rfl⟩
    exact ⟨hstate, rfl⟩
  · rintro ⟨hstate, rfl⟩
    exact ⟨state', hstate, rfl, rfl⟩

/-- A timed run is a run of the loop. The times only decide which of the events can happen. -/
theorem run_untimed {events : List (TimedEvent μ)}
    (hrun : run (timedStep timeout step recv elapsed) a events = some a') :
    run step a.state (events.map (TimedEvent.event recv elapsed)) = some a'.state := by
  induction events generalizing a with
  | nil =>
      cases hrun
      rfl
  | cons e events ih =>
      obtain ⟨a₁, hstep, hrest⟩ := run_cons_eq_some.mp hrun
      refine run_cons_eq_some.mpr ⟨a₁.state, ?_, ih hrest⟩
      cases e with
      | arrive time message => exact (timedStep_arrive_eq_some.mp hstep).2.2.1
      | fire => exact (timedStep_fire_eq_some.mp hstep).1

/-- The timeouts take their time. A message can only arm the timer later than the last
timeout did, never earlier. -/
theorem armedAt_le {events : List (TimedEvent μ)}
    (hrun : run (timedStep timeout step recv elapsed) a events = some a') :
    a.armedAt + fires events * timeout ≤ a'.armedAt := by
  induction events generalizing a with
  | nil =>
      cases hrun
      simp
  | cons e events ih =>
      obtain ⟨a₁, hstep, hrest⟩ := run_cons_eq_some.mp hrun
      have hle := ih hrest
      cases e with
      | arrive time message =>
          obtain ⟨htime, -, -, harmed⟩ := timedStep_arrive_eq_some.mp hstep
          rw [fires_arrive]
          omega
      | fire =>
          have harmed := (timedStep_fire_eq_some.mp hstep).2
          rw [fires_fire, Nat.add_mul, Nat.one_mul]
          omega

/-- Without a message, the timeouts take all of the time: each is armed at the moment
when the one before it fires. -/
theorem armedAt_of_fires {events : List (TimedEvent μ)} (hfires : ∀ e ∈ events, e = .fire)
    (hrun : run (timedStep timeout step recv elapsed) a events = some a') :
    a'.armedAt = a.armedAt + events.length * timeout := by
  induction events generalizing a with
  | nil =>
      cases hrun
      simp
  | cons e events ih =>
      obtain ⟨a₁, hstep, hrest⟩ := run_cons_eq_some.mp hrun
      have hlater := ih (fun e' he' => hfires e' (List.mem_cons_of_mem _ he')) hrest
      rw [hfires e List.mem_cons_self] at hstep
      have harmed := (timedStep_fire_eq_some.mp hstep).2
      rw [List.length_cons, Nat.succ_mul]
      omega

/-- The timeouts take all of the time exactly when all messages are prompt. Each message
that is not prompt adds the time for which the loop had been waiting, and nothing takes
it away again. -/
theorem armedAt_eq_iff {events : List (TimedEvent μ)}
    (hrun : run (timedStep timeout step recv elapsed) a events = some a') :
    a'.armedAt = a.armedAt + fires events * timeout ↔
      AllSteps (timedStep timeout step recv elapsed) Prompt a events := by
  induction events generalizing a with
  | nil =>
      cases hrun
      simp [AllSteps]
  | cons e events ih =>
      obtain ⟨a₁, hstep, hrest⟩ := run_cons_eq_some.mp hrun
      have hle := armedAt_le hrest
      -- The step is a function, so the condition on the rest is one at `a₁`.
      have htail : (∀ a₂, timedStep timeout step recv elapsed a e = some a₂ →
          AllSteps (timedStep timeout step recv elapsed) Prompt a₂ events) ↔
          a'.armedAt = a₁.armedAt + fires events * timeout := by
        rw [ih hrest]
        exact ⟨fun h => h a₁ hstep, fun h a₂ h₂ => by rw [hstep] at h₂; cases h₂; exact h⟩
      rw [AllSteps, htail]
      cases e with
      | arrive time message =>
          obtain ⟨htime, -, -, harmed⟩ := timedStep_arrive_eq_some.mp hstep
          have hprompt : Prompt a (.arrive time message : TimedEvent μ) ↔ time = a.armedAt := by
            refine ⟨fun h => h time message rfl, fun h _ _ he => ?_⟩
            cases he
            exact h
          -- The time before a message is lost to the timers, and `hle` says that none comes back.
          rw [hprompt, fires_arrive]
          omega
      | fire =>
          have harmed := (timedStep_fire_eq_some.mp hstep).2
          have hprompt : Prompt a (.fire : TimedEvent μ) := fun _ _ he => by cases he
          rw [fires_fire, Nat.add_mul, Nat.one_mul, harmed]
          constructor
          · intro h
            exact ⟨hprompt, by omega⟩
          · rintro ⟨-, h⟩
            omega

end

end ChainAlerter.Library
