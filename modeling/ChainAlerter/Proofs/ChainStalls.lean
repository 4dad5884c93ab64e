import ChainAlerter.Library.Timer
import ChainAlerter.Proofs.Recovery

/-!
# `ChainAlerter.Proofs.ChainStalls`: the durations of chain stalls

The stall and reorg monitor with its clock. It never measures a duration. Each timeout
adds the threshold to what is remembered, up to `Duration::MAX`, and each message
forgets it. `StalledFor` says what the monitor remembers after a number of timeouts in
a row.

Every message ends a wait and arms the timer again. So between two messages the timer
fires at all multiples of the threshold until the second one arrives, and what is
remembered then is the time between them, rounded down to such a multiple
(`TracksTime`).
-/

set_option autoImplicit false

namespace ChainAlerter

open ChainAlerter.Library

/-- The recovery of a recovery alert. -/
def Alert.chainRecovery? : Alert → Option ChainRecovery
  | .chainRecovery recovery => some recovery
  | _ => none

namespace Watcher

/-- What ends a wait of the monitor, with its time in nanoseconds. -/
abbrev TimedWatchEvent := TimedEvent (Except RecvError BlocksExt)

/-- A round of the loop with its time. The timer is armed when the round before ends. -/
def timedRound (config : StallAndReorgConfig) :
    Armed Watcher → TimedWatchEvent → Option (Armed Watcher) :=
  timedStep config.nonBlockImportThreshold (step config) WatchEvent.recv WatchEvent.elapsed

/-- The duration of `count` timeouts. -/
def stallDuration (config : StallAndReorgConfig) (count : Nat) : Nat :=
  min (count * config.nonBlockImportThreshold) Duration.MAX

/-- The hash and the number of a block. -/
def hashAndNumber (block : BlockExt) : HashAndNumber :=
  { number := block.number, hash := block.hash }

/-- A running monitor that has seen `best`, and `count` timeouts since. -/
structure StalledFor (config : StallAndReorgConfig) (best : HashAndNumber) (count : Nat)
    (w : Watcher) : Prop where
  status : w.status = .running
  best : w.maybeLastBestBlock = some best
  fired : w.timeoutFired = if count = 0 then none else some (stallDuration config count)

variable {config : StallAndReorgConfig} {w w' : Watcher} {best : HashAndNumber} {count : Nat}

/-! ### Timeouts -/

/-- After `count` timeouts the next stall is one threshold longer, up to the longest
duration. The addition of the source saturates, so it stays there. -/
theorem StalledFor.nextStall (h : StalledFor config best count w)
    (hthreshold : config.nonBlockImportThreshold ≤ Duration.MAX) :
    w.nextStall config = stallDuration config (count + 1) := by
  unfold Watcher.nextStall
  rw [h.fired]
  cases count with
  | zero =>
      show config.nonBlockImportThreshold = stallDuration config 1
      simp [stallDuration, hthreshold]
  | succ count =>
      show Duration.saturatingAdd (stallDuration config (count + 1)) _ = _
      have hadd := min_add_mul_succ Duration.MAX 0 config.nonBlockImportThreshold (count + 1)
      simp only [Nat.zero_add] at hadd
      exact hadd

/-- One more timeout announces one more stall, with the same last block and a
longer duration. -/
theorem StalledFor.timeout (h : StalledFor config best count w)
    (hthreshold : config.nonBlockImportThreshold ≤ Duration.MAX) :
    StalledFor config best (count + 1) (w.timeout config) ∧
      (w.timeout config).alerts = w.alerts ++
        [.chainStall { lastBlock := best, duration := stallDuration config (count + 1) }] := by
  rw [← h.nextStall hthreshold]
  constructor
  · constructor
    · exact h.status
    · exact h.best
    · rw [if_neg (Nat.succ_ne_zero count), ← h.nextStall hthreshold]
      rfl
  · simp only [Watcher.timeout, h.best]
    rfl

/-- A running monitor has a timeout. -/
theorem timedRound_fire (config : StallAndReorgConfig) (a : Armed Watcher)
    (hrunning : a.state.status = .running) :
    timedRound config a .fire = some
      { state := a.state.timeout config
        armedAt := a.armedAt + config.nonBlockImportThreshold } := by
  simp [timedRound, timedStep, step, hrunning]

/-- The timer fires as long as no message arrives. By induction on the number of
timeouts, each of which leaves the monitor stalled for one more. -/
theorem exists_run_fires {a : Armed Watcher} (h : StalledFor config best 0 a.state)
    (hthreshold : config.nonBlockImportThreshold ≤ Duration.MAX) (count : Nat) :
    ∃ v, run (timedRound config) a (List.replicate count .fire) = some v ∧
      StalledFor config best count v.state := by
  induction count with
  | zero => exact ⟨a, rfl, h⟩
  | succ count ih =>
      obtain ⟨v, hrun, hv⟩ := ih
      have hlast : run (timedRound config) a (List.replicate count .fire ++ [.fire]) = some
          { state := v.state.timeout config
            armedAt := v.armedAt + config.nonBlockImportThreshold } := by
        rw [run_append_eq_some]
        exact ⟨v, hrun, by rw [run_singleton, timedRound_fire config v hv.status]⟩
      rw [← List.replicate_succ'] at hlast
      exact ⟨_, hlast, (hv.timeout hthreshold).1⟩

/-! ### Messages -/

/-- A message with a block starts a new count. -/
theorem stalledFor_recvBlocks (hrunning : w.status = .running) {blocksExt : BlocksExt}
    {latest : BlockExt} (hlast : blocksExt.blocks.getLast? = some latest) :
    StalledFor config (hashAndNumber latest) 0 (w.recvBlocks config blocksExt) := by
  constructor <;> simp [recvBlocks, hlast, hrunning, hashAndNumber]

/-- A reorg alert is no recovery. -/
@[simp] theorem chainRecovery?_reorgAlerts (latest : HashAndNumber) (data : Option ReorgData) :
    (reorgAlerts config latest data).filterMap Alert.chainRecovery? = [] := by
  cases data with
  | none => rfl
  | some data =>
      simp only [reorgAlerts]
      split <;> rfl

/-- The recoveries of a message: one if there were timeouts, with their duration. -/
theorem StalledFor.recoveries (h : StalledFor config best count w) {blocksExt : BlocksExt}
    {latest : BlockExt} (hlast : blocksExt.blocks.getLast? = some latest) :
    ((w.recvBlocks config blocksExt).alerts.drop w.alerts.length).filterMap Alert.chainRecovery? =
      if count = 0 then []
      else [{ bestBlock := hashAndNumber latest, duration := stallDuration config count }] := by
  simp only [recvBlocks, hlast, h.fired, List.append_assoc, List.drop_left, List.filterMap_append,
    chainRecovery?_reorgAlerts, List.append_nil]
  split <;> rfl

/-- A message with which the monitor runs on has a block. -/
theorem exists_latest_of_running {blocksExt : BlocksExt}
    (h : (w.recvBlocks config blocksExt).status = .running) :
    ∃ latest, blocksExt.blocks.getLast? = some latest := by
  cases hlast : blocksExt.blocks.getLast? with
  | none =>
      simp only [recvBlocks, hlast] at h
      cases h
  | some latest => exact ⟨latest, rfl⟩

/-- Only a running monitor takes a message. -/
theorem timedRound_arrive {a b : Armed Watcher} {time : Nat} {blocksExt : BlocksExt}
    (h : timedRound config a (.arrive time (.ok blocksExt)) = some b) :
    a.state.status = .running ∧ a.armedAt ≤ time ∧
      time ≤ a.armedAt + config.nonBlockImportThreshold ∧
      b = { state := a.state.recvBlocks config blocksExt, armedAt := time } := by
  obtain ⟨hle, hlt, hstep, harmed⟩ := timedStep_arrive_eq_some.mp h
  have hrunning := (step_round hstep).1
  obtain ⟨state, armedAt⟩ := b
  simp only [step, hrunning, Option.some.injEq] at hstep
  refine ⟨hrunning, hle, hlt, ?_⟩
  rw [hstep]
  exact congrArg _ harmed

/-- A monitor that runs in the end has run all the time, since one that has ended
makes no step. -/
theorem running_of_run {a v : Armed Watcher} {events : List TimedWatchEvent}
    (hrun : run (timedRound config) a events = some v) (hv : v.state.status = .running) :
    a.state.status = .running := by
  cases events with
  | nil =>
      cases hrun
      exact hv
  | cons e events =>
      have huntimed := run_untimed hrun
      obtain ⟨w, hstep, -⟩ := run_cons_eq_some.mp huntimed
      exact (step_round hstep).1

/-! ### Two messages in a row -/

/-- What happens between two messages, with `between` the events from one to the other. The
monitor is in the state `a` after the message `first` at `time₁`, in `v` when the message `second`
arrives at `time₂`, and in `b` after it.

- `k` timeouts fire in the time between the messages, if it is from `k` to `k + 1` thresholds;
- the timeout number `i + 1` fires `i + 1` thresholds after the first message. It sends one alert:
  a stall of this duration, up to `Duration::MAX`, since the last block of that message;
- the second message sends one recovery with its own last block, of the duration of all the
  timeouts, up to `Duration::MAX`. It sends none if there was no timeout. -/
structure TracksTime (config : StallAndReorgConfig) (first second : BlocksExt) (time₁ time₂ : Nat)
    (between : List TimedWatchEvent) (a v b : Armed Watcher) : Prop where
  fires : ∀ e ∈ between, e = .fire
  lower : time₁ + between.length * config.nonBlockImportThreshold ≤ time₂
  upper : time₂ ≤ time₁ + (between.length + 1) * config.nonBlockImportThreshold
  stalls : ∃ latest, first.blocks.getLast? = some latest ∧
    ∀ i < between.length, ∃ x y,
      run (timedRound config) a (between.take i) = some x ∧
      timedRound config x .fire = some y ∧
      y.armedAt = time₁ + (i + 1) * config.nonBlockImportThreshold ∧
      y.state.alerts = x.state.alerts ++
        [.chainStall { lastBlock := hashAndNumber latest
                       duration := min ((i + 1) * config.nonBlockImportThreshold) Duration.MAX }]
  recoveries : ∀ latest, second.blocks.getLast? = some latest →
    v.state.alerts <+: b.state.alerts ∧
    (b.state.alerts.drop v.state.alerts.length).filterMap Alert.chainRecovery? =
      if between.length = 0 then []
      else [{ bestBlock := hashAndNumber latest
              duration := min (between.length * config.nonBlockImportThreshold) Duration.MAX }]

/-- Between two messages with timeouts only, the monitor tracks the time. Each timeout
takes one threshold, so their number is the number of thresholds in the gap, and the
second message closes the stall. -/
theorem tracksTime (hthreshold : config.nonBlockImportThreshold ≤ Duration.MAX)
    {between : List TimedWatchEvent} {u a v b : Armed Watcher} {time₁ time₂ : Nat}
    {first second : BlocksExt} (hfirst : timedRound config u (.arrive time₁ (.ok first)) = some a)
    (hbetween : run (timedRound config) a between = some v)
    (hfires : ∀ e ∈ between, e = .fire)
    (hsecond : timedRound config v (.arrive time₂ (.ok second)) = some b) :
    TracksTime config first second time₁ time₂ between a v b := by
  obtain ⟨hrunning, -, -, ha⟩ := timedRound_arrive hfirst
  obtain ⟨hrunning₂, hle, hlt, hb⟩ := timedRound_arrive hsecond
  have hrunning₁ := running_of_run hbetween hrunning₂
  rw [ha] at hrunning₁
  obtain ⟨latest, hlatest⟩ := exists_latest_of_running hrunning₁
  have hstart : StalledFor config (hashAndNumber latest) 0 a.state := by
    rw [ha]
    exact stalledFor_recvBlocks hrunning hlatest
  have hreplicate : between = List.replicate between.length .fire :=
    List.eq_replicate_iff.mpr ⟨rfl, hfires⟩
  -- The second message meets the state after all the timeouts.
  have hend : StalledFor config (hashAndNumber latest) between.length v.state := by
    obtain ⟨v', hrun, hv'⟩ := exists_run_fires hstart hthreshold between.length
    rw [← hreplicate, hbetween] at hrun
    cases hrun
    exact hv'
  have htime : a.armedAt = time₁ := by rw [ha]
  have harmed := armedAt_of_fires hfires hbetween
  rw [htime] at harmed
  refine ⟨hfires, by omega, ?_, ⟨latest, hlatest, fun i hi => ?_⟩, fun latest₂ hlatest₂ => ?_⟩
  · rw [Nat.succ_mul]
    omega
  · obtain ⟨x, hx, hstalled⟩ := exists_run_fires hstart hthreshold i
    have htake : between.take i = List.replicate i .fire := by
      rw [hreplicate, List.take_replicate, Nat.min_eq_left (Nat.le_of_lt hi)]
    have hx' := armedAt_of_fires (fun _ h => (List.mem_replicate.mp h).2) hx
    rw [List.length_replicate, htime] at hx'
    refine ⟨x, _, by rw [htake, hx], timedRound_fire config x hstalled.status, ?_,
      (hstalled.timeout hthreshold).2⟩
    show x.armedAt + config.nonBlockImportThreshold = _
    rw [hx', Nat.succ_mul, Nat.add_assoc]
  · rw [hb]
    refine ⟨?_, hend.recoveries hlatest₂⟩
    simp only [recvBlocks, hlatest₂, List.append_assoc]
    exact List.prefix_append _ _

/-- Chain stall durations track real time. In every timed run of the monitor, at any two
messages with no other message between them, the timeouts fire, the stalls are announced
and the recovery is sent as `TracksTime` says. The threshold is any duration. -/
theorem chainStalls_track_time (config : StallAndReorgConfig)
    (hthreshold : config.nonBlockImportThreshold ≤ Duration.MAX) (armedAt : Nat)
    (before between : List TimedWatchEvent) (first second : BlocksExt) (time₁ time₂ : Nat)
    (b : Armed Watcher)
    (hrun : run (timedRound config) { state := init, armedAt := armedAt }
      (before ++ .arrive time₁ (.ok first) :: (between ++ [.arrive time₂ (.ok second)])) = some b)
    (hconsecutive : ∀ time result, .arrive time result ∉ between) :
    ∃ u a v,
      run (timedRound config) { state := init, armedAt := armedAt } before = some u ∧
      timedRound config u (.arrive time₁ (.ok first)) = some a ∧
      run (timedRound config) a between = some v ∧
      timedRound config v (.arrive time₂ (.ok second)) = some b ∧
      TracksTime config first second time₁ time₂ between a v b := by
  obtain ⟨u, hbefore, hrest⟩ := run_append_eq_some.mp hrun
  obtain ⟨a, hfirst, hrest⟩ := run_cons_eq_some.mp hrest
  obtain ⟨v, hbetween, hlast⟩ := run_append_eq_some.mp hrest
  rw [run_singleton] at hlast
  have hfires : ∀ e ∈ between, e = .fire := by
    intro e he
    cases e with
    | arrive time result => exact absurd he (hconsecutive time result)
    | fire => rfl
  exact ⟨u, a, v, hbefore, hfirst, hbetween, hlast,
    tracksTime hthreshold hfirst hbetween hfires hlast⟩

/-- With the default threshold of 60 seconds, two messages 150 seconds apart. Two
stalls are announced, of 60 and of 120 seconds, and the second message sends a recovery
of 120 seconds. -/
theorem chainStalls_track_time_150 :
    ∃ b, run (timedRound defaultStallAndReorgConfig) { state := init, armedAt := 0 }
        ([] ++ .arrive (Duration.fromSecs 10) (.ok oneBlock) ::
          ([.fire, .fire] ++ [.arrive (Duration.fromSecs 160) (.ok oneBlock)])) = some b ∧
      b.state.alerts =
        [.chainStall { lastBlock := { number := 1, hash := 2 }, duration := Duration.fromSecs 60 },
         .chainStall { lastBlock := { number := 1, hash := 2 }, duration := Duration.fromSecs 120 },
         .chainRecovery { bestBlock := { number := 1, hash := 2 }
                          duration := Duration.fromSecs 120 }] ∧
      ∃ a v, TracksTime defaultStallAndReorgConfig oneBlock oneBlock (Duration.fromSecs 10)
        (Duration.fromSecs 160) [.fire, .fire] a v b := by
  obtain ⟨-, a, v, -, -, -, -, htracks⟩ := chainStalls_track_time defaultStallAndReorgConfig
    (by decide) 0 [] [.fire, .fire] oneBlock oneBlock (Duration.fromSecs 10) (Duration.fromSecs 160)
    _ rfl (by simp)
  exact ⟨_, rfl, by decide, a, v, htracks⟩

end Watcher

end ChainAlerter
