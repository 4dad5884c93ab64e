import ChainAlerter.Library.Timer
import ChainAlerter.Proofs.Recovery
import ChainAlerter.Proofs.SlotPanics

/-!
# `ChainAlerter.Proofs.Stalls`: when a stalled timekeeper is announced

The slot monitor with its clock. Each round arms a timer of 30 seconds, and any
message on the channel ends the wait, also one that the monitor rejects. So the
timer measures silence on the channel, and not the time since the timekeeper
chain was extended.

`run_stalls` says what the monitor announces while the next slot is missing: one
stall for each timeout, 30 seconds longer than the one before it. The stalls
have the durations since the last slot, each in time, exactly when no message
ends a wait that has taken time, none ends the monitor before the time is over,
and the first stall starts from zero (`stalls_in_time_iff`).
-/

set_option autoImplicit false

namespace ChainAlerter

open ChainAlerter.Library

namespace SlotMonitor

/-- What ends a wait of the monitor, with its time in nanoseconds. -/
abbrev TimedSlotEvent := TimedEvent (Except RecvError PoTInfo)

/-- A round of the loop with its time. The timer is armed when the round before ends. -/
def timedRound (config : SlotsConfig) :
    Armed SlotMonitor → TimedSlotEvent → Option (Armed SlotMonitor) :=
  timedStep slotTimeout (step config) SlotEvent.recv SlotEvent.elapsed

/-- The event brings no proof for the slot after `slot`. -/
def Misses (slot : Slot) (e : TimedSlotEvent) : Prop :=
  ∀ time info, e = .arrive time (.ok info) → info.proof.slot.toNat ≠ slot.toNat + 1

/-- The message ends a monitor whose last slot is `slot`: the channel has closed or
lagged, or the slot has no successor, and then any proof panics. -/
def Stops (slot : Slot) (message : Except RecvError PoTInfo) : Prop :=
  (∃ err, message = .error err) ∨ slot.toNat + 1 = 2 ^ 64

/-- The monitor records the proof and goes on: the proof is the first one, for which no
average is computed, or the sum of the window with it fits a duration. It does when the
proofs were received in order (`totalDuration_pushed_le`). -/
def GoesOn (m : SlotMonitor) (info : PoTInfo) : Prop :=
  m.lastSlot = none ∨ totalDuration (m.pushed info).elems ≤ Duration.MAX

/-- Within `window`, and not later than `deadline`, the stall is announced. -/
def AnnouncesBy (config : SlotsConfig) (a : Armed SlotMonitor) (window : List TimedSlotEvent)
    (deadline : Nat) (stall : TimekeeperStall) : Prop :=
  ∃ before after v, window = before ++ after ∧ run (timedRound config) a before = some v ∧
    v.armedAt ≤ deadline ∧ .timekeeperStall stall ∈ v.state.alerts.drop a.state.alerts.length

variable {config : SlotsConfig} {m m' : SlotMonitor} {e : SlotEvent}

/-! ### What is remembered of a stall -/

/-- The duration of the stall that is remembered, or zero. -/
def stalled (m : SlotMonitor) : Nat := m.timeoutFired.getD 0

/-- The duration after `count` timeouts more. -/
def stallAfter (base count : Nat) : Nat := min (base + count * slotTimeout) Duration.MAX

/-- One timeout is a `Duration`, so the first one that fires is remembered as it is. -/
theorem slotTimeout_le_max : slotTimeout ≤ Duration.MAX := by decide

/-- The next timeout adds its time to what is remembered, and stays at the longest
`Duration`. The two branches of the source, with and without a remembered stall, are
this one formula. -/
theorem nextStall_eq : m.nextStall = min (m.stalled + slotTimeout) Duration.MAX := by
  unfold nextStall stalled
  cases m.timeoutFired with
  | none =>
      rw [Option.getD_none, Nat.zero_add, Nat.min_eq_left slotTimeout_le_max]
  | some duration => rfl

/-- A timeout remembers the duration that it announces. -/
@[simp] theorem stalled_timeout : m.timeout.stalled = m.nextStall := rfl

/-- One timeout more, in the closed form. The saturated sums of the source give the
saturated product, as the limit is the same in every step. -/
theorem min_stallAfter_add (base count : Nat) :
    min (stallAfter base count + slotTimeout) Duration.MAX = stallAfter base (count + 1) :=
  min_add_mul_succ _ _ _ _

/-- A remembered stall has lasted for a timeout, and no longer than a duration can. -/
def StallBounded (m : SlotMonitor) : Prop :=
  ∀ duration, m.timeoutFired = some duration → slotTimeout ≤ duration ∧ duration ≤ Duration.MAX

/-- A round keeps the bounds of the remembered stall. A timeout adds to it with
saturation, an extension forgets it, and the other rounds leave it alone. -/
theorem Round.stallBounded (h : Round config m e m') (hm : m.StallBounded) : m'.StallBounded := by
  cases h with
  | first info hlast => exact hm
  | «extends» info last hlast hnext =>
      intro duration hduration
      rw [timeoutFired_extend] at hduration
      cases hduration
  | rejects info last hlast hnext hmax => exact hm
  | overflows info last hlast hmax => exact hm
  | closed err => exact hm
  | elapsed =>
      intro duration hduration
      -- The addition saturates, so it stays at least one timeout.
      have heq : m.nextStall = duration := Option.some.inj hduration
      have hmax := slotTimeout_le_max
      rw [nextStall_eq] at heq
      omega

/-- Before the first slot, a stall is remembered exactly when a timeout has fired. -/
def SilentStall (events : List SlotEvent) (m : SlotMonitor) : Prop :=
  m.slots.last? = none → (m.timeoutFired = none ↔ SlotEvent.elapsed ∉ events)

/-- A round keeps what holds before the first slot. Only a timeout remembers a stall
there, and only a recorded slot could forget it. -/
theorem Round.silentStall {events : List SlotEvent} (h : Round config m e m')
    (hm : SilentStall events m) : SilentStall (events ++ [e]) m' := by
  intro hnone
  cases h with
  | first info hlast =>
      rw [start, BoundedVec.last?_forcePush (by decide)] at hnone
      cases hnone
  | «extends» info last hlast hnext =>
      rw [slots_extend, BoundedVec.last?_forcePush (by decide)] at hnone
      cases hnone
  | rejects info last hlast hnext hmax =>
      rw [hlast] at hnone
      cases hnone
  | overflows info last hlast hmax =>
      rw [show m.panic.slots.last? = m.slots.last? from rfl, hlast] at hnone
      cases hnone
  | closed err => simpa using hm hnone
  | elapsed => exact iff_of_false (Option.some_ne_none _) (by simp)

/-- In every run a remembered stall has lasted for a timeout at least, so it can be
told from none. -/
theorem run_stallBounded {start₀ : Instant} {events : List SlotEvent}
    (hrun : run (step config) (init start₀) events = some m) : m.StallBounded :=
  run_invariant (fun _ _ _ hm hstep => (step_round hstep).2.stallBounded hm) events _ _
    (fun _ h => by cases h) hrun

/-- In every run, as long as no slot is recorded, a stall is remembered exactly when a
timeout has been among the events. -/
theorem run_silentStall {start₀ : Instant} :
    ∀ (events : List SlotEvent) (m : SlotMonitor),
      run (step config) (init start₀) events = some m → SilentStall events m := by
  refine run_history (fun _ => by simp [init]) fun events m e m' _ hm hstep => ?_
  exact (step_round hstep).2.silentStall hm

/-! ### The round that records a slot -/

/-- A proof that is taken is the last one of the window afterwards. What is remembered
of a stall stays when it is the first, and is forgotten when it extends the chain. -/
theorem Round.recorded {info : PoTInfo} (h : Round config m (.recv (.ok info)) m')
    (htaken : ∀ last, m.lastSlot = some last → info.proof.slot.toNat = last.toNat + 1) :
    m'.slots.last?.map SlotDetails.proof = some info.proof ∧
      (m'.timeoutFired = none ↔ m.lastSlot ≠ none ∨ m.timeoutFired = none) := by
  cases h with
  | first _ hlast =>
      rw [start, BoundedVec.last?_forcePush (by decide)]
      exact ⟨rfl, by simp [lastSlot, hlast]⟩
  | «extends» _ last hlast hnext =>
      rw [slots_extend, BoundedVec.last?_forcePush (by decide)]
      exact ⟨rfl, by simp [lastSlot, hlast]⟩
  | rejects _ last hlast hnext hmax =>
      exact absurd (htaken last.proof.slot (by simp [lastSlot, hlast])) hnext
  | overflows _ last hlast hmax =>
      have hnext := htaken last.proof.slot (by simp [lastSlot, hlast])
      have hlt := info.proof.slot.toNat_lt
      omega

/-- The round that takes a proof leaves a running monitor exactly when the sum fits. -/
theorem Round.recorded_running_iff {info : PoTInfo} (h : Round config m (.recv (.ok info)) m')
    (hrunning : m.status = .running)
    (htaken : ∀ last, m.lastSlot = some last → info.proof.slot.toNat = last.toNat + 1) :
    m'.status = .running ↔ GoesOn m info := by
  cases h with
  | first _ hlast => exact iff_of_true hrunning (Or.inl (by simp [lastSlot, hlast]))
  | «extends» _ last hlast hnext =>
      have hsome : m.lastSlot ≠ none := by simp [lastSlot, hlast]
      rw [GoesOn, or_iff_right hsome]
      refine ⟨totalDuration_pushed_le_of_extend, fun hfits => ?_⟩
      rw [extend_eq hfits]
      exact hrunning
  | rejects _ last hlast hnext hmax =>
      exact absurd (htaken last.proof.slot (by simp [lastSlot, hlast])) hnext
  | overflows _ last hlast hmax =>
      have hnext := htaken last.proof.slot (by simp [lastSlot, hlast])
      have hlt := info.proof.slot.toNat_lt
      omega

/-! ### The window without the next slot -/

/-- The stalls that `count` timeouts announce. -/
def stallAlerts (slot : Slot) (base count : Nat) : List Alert :=
  (List.range count).map fun n =>
    .timekeeperStall { lastSlot := slot.toNat, duration := stallAfter base (n + 1) }

/-- One timeout more announces one stall more, at the end. -/
theorem stallAlerts_succ (slot : Slot) (base count : Nat) :
    stallAlerts slot base (count + 1) = stallAlerts slot base count ++
      [.timekeeperStall { lastSlot := slot.toNat, duration := stallAfter base (count + 1) }] := by
  simp [stallAlerts, List.range_succ]

/-- A stall is among those of `count` timeouts exactly when one of them announces
its duration. -/
theorem mem_stallAlerts_iff {slot : Slot} {base count duration : Nat} :
    .timekeeperStall { lastSlot := slot.toNat, duration := duration } ∈
        stallAlerts slot base count ↔
      ∃ n < count, stallAfter base (n + 1) = duration := by
  simp [stallAlerts]

/-- `a'` comes from `a`, after `count` timeouts and no slot after `slot`. -/
structure Stalls (slot : Slot) (a : SlotMonitor) (count : Nat) (a' : SlotMonitor) : Prop where
  lastSlot : a'.lastSlot = some slot
  stalled : a'.stalled = stallAfter a.stalled count
  alerts : a'.alerts = a.alerts ++ stallAlerts slot a.stalled count

/-- A timeout in the window announces the next stall and keeps the last slot, so it
counts as one more. -/
theorem Stalls.timeout {slot : Slot} {count : Nat} (h : Stalls slot m count m') :
    Stalls slot m (count + 1) m'.timeout := by
  refine ⟨h.lastSlot, ?_, ?_⟩
  · rw [stalled_timeout, nextStall_eq, h.stalled, min_stallAfter_add]
  · obtain ⟨last, hlast, hslot⟩ := Option.map_eq_some_iff.mp h.lastSlot
    have halerts : m'.timeout.alerts = m'.alerts ++
        [.timekeeperStall { lastSlot := slot.toNat, duration := m'.nextStall }] := by
      simp only [SlotMonitor.timeout, hlast, hslot]
      rfl
    rw [halerts, h.alerts, nextStall_eq, h.stalled, min_stallAfter_add, stallAlerts_succ,
      List.append_assoc]

/-- A round of a timeout has one outcome. -/
theorem Round.eq_timeout (h : Round config m .elapsed m') : m' = m.timeout := by
  cases h with
  | elapsed => rfl

/-- A message that does not bring the next slot announces nothing. It is
rejected, or ends the monitor, and in both cases the last slot and what is
remembered of the stall stay. -/
theorem Stalls.recv {slot : Slot} {count : Nat} {m₁ : SlotMonitor}
    {result : Except RecvError PoTInfo}
    (h : Stalls slot m count m') (hround : Round config m' (.recv result) m₁)
    (hmiss : ∀ info, result = .ok info → info.proof.slot.toNat ≠ slot.toNat + 1) :
    Stalls slot m count m₁ := by
  obtain ⟨last, hlast, hslot⟩ := Option.map_eq_some_iff.mp h.lastSlot
  cases hround with
  | first info hnone =>
      rw [hlast] at hnone
      cases hnone
  | «extends» info last' hlast' hnext =>
      rw [hlast] at hlast'
      cases hlast'
      rw [hslot] at hnext
      exact absurd hnext (hmiss info rfl)
  | rejects info last' hlast' hnext hmax => exact h
  | overflows info last' hlast' hmax => exact ⟨h.lastSlot, h.stalled, h.alerts⟩
  | closed err => exact ⟨h.lastSlot, h.stalled, h.alerts⟩

/-- While the next slot is missing, each timeout announces a stall, and nothing else
is announced. -/
theorem run_stalls {slot : Slot} {a : Armed SlotMonitor} (hlast : a.state.lastSlot = some slot)
    (hbound : a.state.stalled ≤ Duration.MAX) :
    ∀ (window : List TimedSlotEvent) (v : Armed SlotMonitor),
      run (timedRound config) a window = some v → (∀ e ∈ window, Misses slot e) →
        Stalls slot a.state (fires window) v.state := by
  refine run_history (P := fun window (v : Armed SlotMonitor) => (∀ e ∈ window, Misses slot e) →
    Stalls slot a.state (fires window) v.state) (fun _ => ⟨hlast, ?_, ?_⟩) ?_
  · simp [stallAfter, hbound]
  · simp [stallAlerts]
  · intro window v e v' _ ih hstep hmiss
    have hstalls := ih fun e' he' => hmiss e' (List.mem_append_left _ he')
    rw [fires_append]
    cases e with
    | arrive time result =>
        have hround := (step_round (timedStep_arrive_eq_some.mp hstep).2.2.1).2
        have hmiss' := hmiss (.arrive time result) (by simp)
        exact hstalls.recv hround fun info hinfo => hmiss' time info (by rw [hinfo])
    | fire =>
        rw [(step_round (timedStep_fire_eq_some.mp hstep).1).2.eq_timeout]
        exact hstalls.timeout

/-! ### Messages that end the monitor -/

/-- A timed round is a round of a running monitor. -/
theorem timedRound_round {a a' : Armed SlotMonitor} {e : TimedSlotEvent}
    (h : timedRound config a e = some a') :
    a.state.status = .running ∧
      Round config a.state (e.event SlotEvent.recv SlotEvent.elapsed) a'.state := by
  cases e with
  | arrive time message => exact step_round (timedStep_arrive_eq_some.mp h).2.2.1
  | fire => exact step_round (timedStep_fire_eq_some.mp h).1

/-- A monitor that has ended waits for nothing. -/
theorem run_timedRound_ended {a w : Armed SlotMonitor} {window : List TimedSlotEvent}
    (h : a.state.status ≠ .running) (hrun : run (timedRound config) a window = some w) :
    window = [] ∧ w = a :=
  run_of_stuck (fun _ _ hstep => h (timedRound_round hstep).1) hrun

/-- A message that does not bring the next slot leaves a running monitor, unless it is
one of those that end it. -/
theorem Round.running_iff_not_stops {slot : Slot} {message : Except RecvError PoTInfo}
    (h : Round config m (.recv message) m') (hrunning : m.status = .running)
    (hlast : m.lastSlot = some slot)
    (hmiss : ∀ info, message = .ok info → info.proof.slot.toNat ≠ slot.toNat + 1) :
    m'.status = .running ↔ ¬ Stops slot message := by
  obtain ⟨last, hslots, hslot⟩ := Option.map_eq_some_iff.mp hlast
  cases h with
  | first info hnone =>
      rw [hslots] at hnone
      cases hnone
  | «extends» info last' hslots' hnext =>
      rw [hslots] at hslots'
      cases hslots'
      rw [hslot] at hnext
      exact absurd hnext (hmiss info rfl)
  | rejects info last' hslots' hnext hmax =>
      rw [hslots] at hslots'
      cases hslots'
      refine iff_of_true hrunning ?_
      rintro (⟨err, herr⟩ | hstops)
      · cases herr
      · exact hmax (hslot ▸ hstops)
  | overflows info last' hslots' hmax =>
      rw [hslots] at hslots'
      cases hslots'
      exact iff_of_false (fun h => by cases h) fun h => h (Or.inr (hslot ▸ hmax))
  | closed err => exact iff_of_false (fun h => by cases h) fun h => h (Or.inl ⟨err, rfl⟩)

/-- A message of the window that ends the monitor is its last event, so the window ends
when it arrives. -/
theorem armedAt_of_stops {slot : Slot} {a w : Armed SlotMonitor} {window : List TimedSlotEvent}
    {time : Nat} {message : Except RecvError PoTInfo} (hlast : a.state.lastSlot = some slot)
    (hbound : a.state.stalled ≤ Duration.MAX) (hrun : run (timedRound config) a window = some w)
    (hmiss : ∀ e ∈ window, Misses slot e) (hmem : .arrive time message ∈ window)
    (hstops : Stops slot message) : w.armedAt = time := by
  obtain ⟨before, after, rfl⟩ := List.append_of_mem hmem
  obtain ⟨v, hv, hrest⟩ := run_append_eq_some.mp hrun
  obtain ⟨v', hstep, hafter⟩ := run_cons_eq_some.mp hrest
  have hstalls := run_stalls hlast hbound before v hv fun e he =>
    hmiss e (List.mem_append_left _ he)
  obtain ⟨hrunning, hround⟩ := timedRound_round hstep
  have hended : v'.state.status ≠ .running := by
    rw [Ne, hround.running_iff_not_stops hrunning hstalls.lastSlot
      fun info hinfo => hmiss _ hmem time info (by rw [hinfo]), not_not]
    exact hstops
  obtain ⟨-, rfl⟩ := run_timedRound_ended hended hafter
  exact (timedStep_arrive_eq_some.mp hstep).2.2.2

/-- A monitor that has ended in the window did so on a message, at the instant
the window ends. -/
theorem exists_stops_of_ended {slot : Slot} {a w : Armed SlotMonitor}
    {window : List TimedSlotEvent} (hlast : a.state.lastSlot = some slot)
    (hbound : a.state.stalled ≤ Duration.MAX) (hrunning : a.state.status = .running)
    (hrun : run (timedRound config) a window = some w) (hmiss : ∀ e ∈ window, Misses slot e)
    (hended : w.state.status ≠ .running) :
    ∃ message, .arrive w.armedAt message ∈ window ∧ Stops slot message := by
  rcases List.eq_nil_or_concat window with rfl | ⟨before, e, rfl⟩
  · cases hrun
    exact absurd hrunning hended
  · rw [List.concat_eq_append] at hrun hmiss ⊢
    obtain ⟨v, hv, hlastStep⟩ := run_append_eq_some.mp hrun
    rw [run_singleton] at hlastStep
    have hstalls := run_stalls hlast hbound before v hv fun e he =>
      hmiss e (List.mem_append_left _ he)
    obtain ⟨hrunning', hround⟩ := timedRound_round hlastStep
    cases e with
    | arrive time message =>
        have hmiss' := hmiss (.arrive time message) (by simp)
        rw [Ne, hround.running_iff_not_stops hrunning' hstalls.lastSlot
          fun info hinfo => hmiss' time info (by rw [hinfo]), not_not] at hended
        rw [(timedStep_arrive_eq_some.mp hlastStep).2.2.2]
        exact ⟨message, by simp, hended⟩
    | fire =>
        -- A timeout leaves the status as it is.
        rw [hround.eq_timeout] at hended
        exact absurd hrunning' hended

/-! ### Stalls in time -/

/-- What is announced within a window without the next slot: the stalls of its
timeouts, in their order. So a stall is announced in time exactly when its timeout
fires in time. -/
theorem announcesBy_iff {slot : Slot} {a : Armed SlotMonitor} {window : List TimedSlotEvent}
    {deadline duration : Nat} (hlast : a.state.lastSlot = some slot)
    (hbound : a.state.stalled ≤ Duration.MAX) (hmiss : ∀ e ∈ window, Misses slot e) :
    AnnouncesBy config a window deadline { lastSlot := slot.toNat, duration := duration } ↔
      ∃ before after v, window = before ++ after ∧ run (timedRound config) a before = some v ∧
        v.armedAt ≤ deadline ∧ ∃ n < fires before, stallAfter a.state.stalled (n + 1) = duration := by
  refine exists_congr fun before => exists_congr fun after => exists_congr fun v => ?_
  refine and_congr_right fun hwindow => and_congr_right fun hrun => and_congr_right fun _ => ?_
  have hstalls := run_stalls hlast hbound before v hrun fun e he =>
    hmiss e (hwindow ▸ List.mem_append_left _ he)
  rw [hstalls.alerts, List.drop_left, mem_stallAlerts_iff]

/-- A multiple of the timeout that is the duration of a stall comes from as many timeouts. -/
theorem stallAfter_eq_mul_iff {base n count : Nat} (hcount : count = 1 ∨ base = 0) :
    stallAfter base (n + 1) = count * slotTimeout ↔
      base = 0 ∧ n + 1 = count ∧ count * slotTimeout ≤ Duration.MAX := by
  have hvalue : slotTimeout = 30 * 10 ^ 9 := rfl
  have hmax : Duration.MAX = 2 ^ 64 * 10 ^ 9 - 1 := rfl
  rw [stallAfter, hvalue, hmax]
  omega

/-- A window up to the instant `count` timeouts later has seen as many exactly when
the monitor runs at its start, no message ends a wait that has taken time, and none
ends the monitor before that instant. The window has all timers that are due, or ends
with the monitor. -/
theorem fires_eq_iff {slot : Slot} {a w : Armed SlotMonitor} {window : List TimedSlotEvent}
    {count : Nat} (hlast : a.state.lastSlot = some slot)
    (hbound : a.state.stalled ≤ Duration.MAX)
    (hrun : run (timedRound config) a window = some w) (hmiss : ∀ e ∈ window, Misses slot e)
    (hpos : 1 ≤ count) (hle : w.armedAt ≤ a.armedAt + count * slotTimeout)
    (hend : a.armedAt + count * slotTimeout < w.armedAt + slotTimeout ∨
      w.state.status ≠ .running) :
    fires window = count ↔
      a.state.status = .running ∧ AllSteps (timedRound config) Prompt a window ∧
        ∀ time message, .arrive time message ∈ window → Stops slot message →
          a.armedAt + count * slotTimeout ≤ time := by
  have hfires := armedAt_le hrun
  rw [timedRound, ← armedAt_eq_iff hrun]
  constructor
  · rintro rfl
    refine ⟨?_, by omega, fun time message hmem hstops => ?_⟩
    · -- A monitor that has ended sees no timeout.
      by_contra hended
      obtain ⟨rfl, -⟩ := run_timedRound_ended hended hrun
      rw [fires_nil] at hpos
      omega
    · have htime := armedAt_of_stops hlast hbound hrun hmiss hmem hstops
      omega
  · rintro ⟨hrunning, harmed, hstops⟩
    have hle' : fires window * slotTimeout ≤ count * slotTimeout := by omega
    have hfew := Nat.le_of_mul_le_mul_right hle' (by decide)
    rcases hend with hlt | hended
    · have hlt' : count * slotTimeout < (fires window + 1) * slotTimeout := by
        rw [Nat.succ_mul]
        omega
      have := Nat.lt_of_mul_lt_mul_right hlt'
      omega
    · -- The monitor ended on a message, and such a message does not come before the deadline.
      obtain ⟨message, hmem, hstop⟩ := exists_stops_of_ended hlast hbound hrunning hrun hmiss hended
      have hlate := hstops w.armedAt message hmem hstop
      have hmany : count * slotTimeout ≤ fires window * slotTimeout := by omega
      have := Nat.le_of_mul_le_mul_right hmany (by decide)
      omega

/-- A remembered stall is the same as one that has lasted. -/
theorem StallBounded.timeoutFired_eq_none_iff (h : m.StallBounded) :
    m.timeoutFired = none ↔ m.stalled = 0 := by
  unfold stalled
  cases hfired : m.timeoutFired with
  | none => simp
  | some duration =>
      have hduration := (h duration hfired).1
      have hpos : 0 < slotTimeout := by decide
      refine iff_of_false (Option.some_ne_none _) ?_
      rw [Option.getD_some]
      omega

/-- What is remembered of a stall is a `Duration`, also when nothing is. -/
theorem StallBounded.stalled_le (h : m.StallBounded) : m.stalled ≤ Duration.MAX := by
  unfold stalled
  cases hfired : m.timeoutFired with
  | none => exact Nat.zero_le _
  | some duration => exact (h duration hfired).2

/-- All stalls in time, from any state with a last slot: the monitor counts from
zero, the timer fires as often as it can until the last deadline, and the duration
can be represented. -/
theorem announces_all_iff {slot : Slot} {a w : Armed SlotMonitor} {window : List TimedSlotEvent}
    {count : Nat} (hlast : a.state.lastSlot = some slot) (hbounded : a.state.StallBounded)
    (hrun : run (timedRound config) a window = some w) (hmiss : ∀ e ∈ window, Misses slot e)
    (hpos : 1 ≤ count) (hle : w.armedAt ≤ a.armedAt + count * slotTimeout) :
    (∀ j, 1 ≤ j → j ≤ count → AnnouncesBy config a window (a.armedAt + j * slotTimeout)
        { lastSlot := slot.toNat, duration := j * slotTimeout }) ↔
      a.state.timeoutFired = none ∧ fires window = count ∧ count * slotTimeout ≤ Duration.MAX := by
  have hmax := hbounded.stalled_le
  have htime := armedAt_le hrun
  rw [hbounded.timeoutFired_eq_none_iff]
  constructor
  · intro hall
    -- The first stall shows that the monitor counts from zero, and the last one how often the
    -- timer has fired.
    obtain ⟨_, _, _, -, -, -, n, -, hfirst⟩ :=
      (announcesBy_iff hlast hmax hmiss).mp (hall 1 le_rfl hpos)
    have hzero := ((stallAfter_eq_mul_iff (Or.inl rfl)).mp hfirst).1
    obtain ⟨before, after, v, rfl, -, -, n, hn, hlast⟩ :=
      (announcesBy_iff hlast hmax hmiss).mp (hall count hpos le_rfl)
    obtain ⟨-, hcount, hfits⟩ := (stallAfter_eq_mul_iff (Or.inr hzero)).mp hlast
    refine ⟨hzero, ?_, hfits⟩
    have hle' : fires (before ++ after) * slotTimeout ≤ count * slotTimeout := by omega
    have := Nat.le_of_mul_le_mul_right hle' (by decide)
    rw [fires_append] at *
    omega
  · rintro ⟨hzero, rfl, hfits⟩ j hj hjcount
    -- The timeouts take all of the time, so each comes at its own deadline.
    have hprompt := (armedAt_eq_iff hrun).mp (by omega)
    obtain ⟨before, after, rfl, hbefore⟩ := exists_split_fires hjcount
    obtain ⟨v, hv, -⟩ := run_append_eq_some.mp hrun
    have harmed := (armedAt_eq_iff hv).mpr (allSteps_append_iff.mp hprompt).1
    have hmul : j * slotTimeout ≤ fires (before ++ after) * slotTimeout :=
      Nat.mul_le_mul_right _ hjcount
    rw [announcesBy_iff hlast hmax hmiss]
    refine ⟨before, after, v, rfl, hv, by rw [harmed, hbefore], j - 1, by omega, ?_⟩
    exact (stallAfter_eq_mul_iff (Or.inr hzero)).mpr ⟨hzero, by omega, by omega⟩

/-! ### All runs -/

/-- A stalled timekeeper is announced in time exactly when no message resets the timer or ends
the monitor. The monitor runs from its start, and takes the proof `info` at `time`. Then
`window` has no proof for the next slot, and brings the monitor to the instant `count`
timeouts later, with all timers that are due, or to its end on the way. For each `j` up to
`count` a stall of `j` timeouts is announced within that time, if and only if

* the sum of the window of slots with `info` fits a duration,
* `info` is not the first slot, or no timer has fired before it,
* every message in the window arrives at an instant at which the timer was armed,
* no message before the last deadline ends the monitor: an error of the channel, or any message
  when the slot of `info` is `u64::MAX`,
* the duration can be represented. -/
theorem stalls_in_time_iff (config : SlotsConfig) (start₀ : Instant) (armedAt : Nat)
    (before window : List TimedSlotEvent) (u a w : Armed SlotMonitor) (time : Nat) (info : PoTInfo)
    (count : Nat)
    (hbefore : run (timedRound config) { state := init start₀, armedAt := armedAt } before = some u)
    (hrecord : timedRound config u (.arrive time (.ok info)) = some a)
    (htaken : ∀ last, u.state.lastSlot = some last → info.proof.slot.toNat = last.toNat + 1)
    (hwindow : run (timedRound config) a window = some w)
    (hmiss : ∀ e ∈ window, Misses info.proof.slot e)
    (hpos : 1 ≤ count) (hle : w.armedAt ≤ time + count * slotTimeout)
    (hend : time + count * slotTimeout < w.armedAt + slotTimeout ∨ w.state.status ≠ .running) :
    (∀ j, 1 ≤ j → j ≤ count → AnnouncesBy config a window (time + j * slotTimeout)
        { lastSlot := info.proof.slot.toNat, duration := j * slotTimeout }) ↔
      GoesOn u.state info ∧ (u.state.lastSlot ≠ none ∨ .fire ∉ before) ∧
        AllSteps (timedRound config) Prompt a window ∧
        (∀ t message, .arrive t message ∈ window → Stops info.proof.slot message →
          time + count * slotTimeout ≤ t) ∧
        count * slotTimeout ≤ Duration.MAX := by
  have huntimed := run_untimed hbefore
  obtain ⟨-, -, hstep, rfl⟩ := timedStep_arrive_eq_some.mp hrecord
  obtain ⟨hrunning, hround⟩ := step_round hstep
  obtain ⟨hproof, hfired⟩ := hround.recorded htaken
  have hlast : a.state.lastSlot = some info.proof.slot := by
    obtain ⟨last, hlast, hproof⟩ := Option.map_eq_some_iff.mp hproof
    rw [lastSlot, hlast, ← hproof]
    rfl
  have hsilent : u.state.lastSlot = none → (u.state.timeoutFired = none ↔ .fire ∉ before) := by
    intro hnone
    rw [run_silentStall _ _ huntimed (Option.map_eq_none_iff.mp hnone), not_iff_not]
    simp only [List.mem_map]
    constructor
    · rintro ⟨e, he, helapsed⟩
      cases e with
      | arrive time result => cases helapsed
      | fire => exact he
    · intro hfire
      exact ⟨.fire, hfire, rfl⟩
  have hfresh : a.state.timeoutFired = none ↔ u.state.lastSlot ≠ none ∨ .fire ∉ before := by
    rw [hfired]
    by_cases hnone : u.state.lastSlot = none
    · rw [hsilent hnone]
    · simp [hnone]
  have hbounded := hround.stallBounded (run_stallBounded huntimed)
  rw [announces_all_iff hlast hbounded hwindow hmiss hpos hle,
    fires_eq_iff hlast hbounded.stalled_le hwindow hmiss hpos hle hend,
    hround.recorded_running_iff hrunning htaken, hfresh]
  constructor
  · rintro ⟨hfresh, ⟨hgoes, hprompt, hstops⟩, hfits⟩
    exact ⟨hgoes, hfresh, hprompt, hstops, hfits⟩
  · rintro ⟨hgoes, hfresh, hprompt, hstops, hfits⟩
    exact ⟨hfresh, ⟨hgoes, hprompt, hstops⟩, hfits⟩

/-- Slot 5 arrives after one second, and then nothing for 60 seconds. Two stalls are
announced, of 30 and of 60 seconds. -/
theorem stalls_in_time_iff_silence :
    ∃ a, timedRound .default { state := init (.ofSecs 0), armedAt := 0 }
        (.arrive (Duration.fromSecs 1) (.ok (potInfo 1 5))) = some a ∧
      ∀ j, 1 ≤ j → j ≤ 2 → AnnouncesBy .default a [.fire, .fire]
        (Duration.fromSecs 1 + j * slotTimeout) { lastSlot := 5, duration := j * slotTimeout } :=
  ⟨_, rfl, (stalls_in_time_iff .default (.ofSecs 0) 0 [] [.fire, .fire] _ _ _ (Duration.fromSecs 1)
    (potInfo 1 5) 2 rfl rfl (fun _ h => by cases h) rfl (by simp [Misses]) (by decide) (by decide)
    (Or.inl (by decide))).mpr ⟨Or.inl rfl, Or.inr (by simp), by simp [AllSteps, Prompt],
      by simp, by decide⟩⟩

/-- Slot 5 arrives after one second, and once more 29 seconds later. After 30 seconds
without slot 6 no stall has been announced, although no timer is due. -/
theorem duplicate_delays_stall :
    ∃ a w, timedRound .default { state := init (.ofSecs 0), armedAt := 0 }
        (.arrive (Duration.fromSecs 1) (.ok (potInfo 1 5))) = some a ∧
      run (timedRound .default) a [.arrive (Duration.fromSecs 30) (.ok (potInfo 30 5))] = some w ∧
      w.armedAt ≤ Duration.fromSecs 1 + slotTimeout ∧
      Duration.fromSecs 1 + slotTimeout < w.armedAt + slotTimeout ∧
      ¬ AnnouncesBy .default a [.arrive (Duration.fromSecs 30) (.ok (potInfo 30 5))]
        (Duration.fromSecs 1 + slotTimeout) { lastSlot := 5, duration := slotTimeout } := by
  refine ⟨_, _, rfl, rfl, by decide, by decide, fun hannounces => ?_⟩
  have hmiss : ∀ e ∈ [(.arrive (Duration.fromSecs 30) (.ok (potInfo 30 5)) : TimedSlotEvent)],
      Misses 5 e := by
    simp [Misses, potInfo]
  obtain ⟨before, after, v, hsplit, -, -, n, hn, -⟩ :=
    (announcesBy_iff rfl (Nat.zero_le _) hmiss).mp hannounces
  have hfires := congrArg fires hsplit
  rw [fires_append, fires_arrive, fires_nil] at hfires
  omega

end SlotMonitor

end ChainAlerter
