import ChainAlerter.Library.StallTrace
import ChainAlerter.Proofs.SlotHistory

/-!
# `ChainAlerter.Proofs.Recovery`: recoveries and the stalls they close

Both monitors remember the duration of a stall in `timeout_fired`, whether or not
they announce it. The stall and reorg monitor announces nothing before its first
block, and the slot monitor nothing before its first slot. So a timeout in this
phase is remembered in silence, and the recovery alert that it leads to closes no
stall.

In the stall and reorg monitor the first block always leads to one
(`blockAfterTimeout`). In the slot monitor the first slot does not, but the next
one does, unless a timeout between them announces the stall after all
(`extensionAfterTimeout`). From any other start the trace of each monitor stays
closed.
-/

set_option autoImplicit false

namespace ChainAlerter

open ChainAlerter.Library

/-! ### The traces -/

/-- The stall and recovery alerts about blocks. -/
def Alert.chainMark? : Alert → Option Mark
  | .chainStall stall => some (.stall stall.duration)
  | .chainRecovery recovery => some (.recovery recovery.duration)
  | _ => none

/-- The stall and recovery alerts about slots. -/
def Alert.timekeeperMark? : Alert → Option Mark
  | .timekeeperStall stall => some (.stall stall.duration)
  | .timekeeperRecovery recovery => some (.recovery recovery.duration)
  | _ => none

/-- What the block monitor remembers of a stall, and its marks so far. -/
def Watcher.stallState (w : Watcher) : StallState :=
  { fired := w.timeoutFired, trace := w.alerts.filterMap Alert.chainMark? }

/-- What the slot monitor remembers of a stall, and its marks so far. -/
def SlotMonitor.stallState (m : SlotMonitor) : StallState :=
  { fired := m.timeoutFired, trace := m.alerts.filterMap Alert.timekeeperMark? }

/-! ### The slot monitor -/

namespace SlotMonitor

variable {config : SlotsConfig} {m m' : SlotMonitor} {e : SlotEvent}

/-- The duration that the next timeout remembers. -/
def nextStall (m : SlotMonitor) : Nat :=
  match m.timeoutFired with
  | some timeout => Duration.saturatingAdd timeout slotTimeout
  | none => slotTimeout

/-- A recovery alert is the mark of a recovery, and there is one exactly when a timeout
is remembered. -/
@[simp] theorem filterMap_recoveryAlerts (proof : GossipProof) (fired : Option Nat) :
    (recoveryAlerts proof fired).filterMap Alert.timekeeperMark? =
      (fired.map .recovery).toList := by
  cases fired <;> rfl

/-- A slow slot is no mark of a stall or of a recovery. -/
@[simp] theorem filterMap_slowSlotAlerts (last : SlotDetails) (proof : GossipProof)
    (duration : Nat) :
    (slowSlotAlerts config last proof duration).filterMap Alert.timekeeperMark? = [] := by
  unfold slowSlotAlerts
  split <;> rfl

/-- An alert about the average slot time is no mark of a stall or of a recovery. -/
@[simp] theorem filterMap_avgSlowSlotAlerts (slots : BoundedVec SlotDetails SLOT_WINDOW)
    (proof : GossipProof) (avg : Nat) :
    (avgSlowSlotAlerts config slots proof avg).filterMap Alert.timekeeperMark? = [] := by
  unfold avgSlowSlotAlerts
  split <;> rfl

/-- An extension recovers. -/
theorem stallState_extend (last : SlotDetails) (info : PoTInfo) (duration : Nat) :
    (m.extend config last info duration).stallState =
      { fired := none
        trace := m.stallState.trace ++ (m.stallState.fired.map .recovery).toList } := by
  rw [extend]
  split <;> simp [stallState, panic]

/-- A timeout after the first slot is announced. -/
theorem stallState_timeout_of_some {last : SlotDetails} (hlast : m.slots.last? = some last) :
    m.timeout.stallState =
      { fired := some m.nextStall, trace := m.stallState.trace ++ [.stall m.nextStall] } := by
  simp only [stallState, timeout, hlast, List.filterMap_append]
  rfl

/-- A timeout before the first slot is not. -/
theorem stallState_timeout_of_none (hlast : m.slots.last? = none) :
    m.timeout.stallState = { m.stallState with fired := some m.nextStall } := by
  simp only [stallState, timeout, hlast, List.append_nil]
  rfl

/-- Every round of the slot monitor is a step of the stall state: it is quiet, recovers,
or fires, with an alert once there is a slot and silently before. All that the monitor
shares with the block monitor follows from the steps of the stall state. -/
theorem Round.stallStep (h : Round config m e m') : StallStep m.stallState m'.stallState := by
  cases h with
  | first info hlast => exact .quiet
  | «extends» info last hlast hnext =>
      rw [stallState_extend]
      exact .recover
  | rejects info last hlast hnext hmax => exact .quiet
  | overflows info last hlast hmax => exact .quiet
  | closed err => exact .quiet
  | elapsed =>
      cases hlast : m.slots.last? with
      | none =>
          rw [stallState_timeout_of_none hlast]
          exact .silent _
      | some last =>
          rw [stallState_timeout_of_some hlast]
          exact .stall _

/-- Once a slot is recorded, there is a last one. An extension puts another one in its
place, and no round empties the window. -/
theorem Round.last?_ne_none (h : Round config m e m') (hlast : m.slots.last? ≠ none) :
    m'.slots.last? ≠ none := by
  cases h with
  | first info hnone => exact absurd hnone hlast
  | «extends» info last _ _ =>
      rw [slots_extend, BoundedVec.last?_forcePush (by decide)]
      exact Option.some_ne_none _
  | rejects info last _ _ _ => exact hlast
  | overflows info last _ _ => exact hlast
  | closed err => exact hlast
  | elapsed => exact hlast

/-- Once a slot is recorded, every timeout is announced, so what is remembered and what
has been announced agree from then on. -/
theorem Round.tracked (h : Round config m e m') (hlast : m.slots.last? ≠ none)
    (htracked : m.stallState.Tracked) : m'.stallState.Tracked := by
  cases h with
  | elapsed =>
      obtain ⟨last, hsome⟩ := Option.ne_none_iff_exists'.mp hlast
      rw [stallState_timeout_of_some hsome]
      exact ⟨closed_append_stall.mpr htracked.closed, pending_append_stall _ _⟩
  | first info hnone => exact absurd hnone hlast
  | «extends» info last _ _ =>
      rw [stallState_extend]
      -- A recovery forgets the timeout, so it is none that stays unannounced.
      exact (StallStep.recover.tracked htracked).resolve_right fun ⟨d, hd⟩ => by
        cases congrArg StallState.fired hd
  | rejects info last _ _ _ => exact htracked
  | overflows info last _ _ => exact htracked
  | closed err => exact htracked

/-- From a monitor with a recorded slot on, every run announces each timeout that it
remembers, so its stalls and recoveries alternate in its trace. -/
theorem run_tracked {events : List SlotEvent} (hlast : m.slots.last? ≠ none)
    (htracked : m.stallState.Tracked) (hrun : run (step config) m events = some m') :
    m'.stallState.Tracked := by
  have hinvariant : m'.slots.last? ≠ none ∧ m'.stallState.Tracked := by
    refine run_invariant (P := fun m : SlotMonitor => m.slots.last? ≠ none ∧ m.stallState.Tracked)
      (fun m e m' h hstep => ?_) events m m' ⟨hlast, htracked⟩ hrun
    have hround := (step_round hstep).2
    exact ⟨hround.last?_ne_none h.1, hround.tracked h.1 h.2⟩
  exact hinvariant.2

/-- A recovery without a stall stays in the trace. Alerts are only appended, so no later
run closes a trace that was opened wrongly. -/
theorem run_not_closed {events : List SlotEvent} (h : ¬ Closed m.stallState.trace)
    (hrun : run (step config) m events = some m') : ¬ Closed m'.stallState.trace :=
  run_invariant (fun _ _ _ h hstep => (step_round hstep).2.stallStep.not_closed h) events m m' h
    hrun

/-- A monitor that has ended takes no event. -/
theorem run_ended {events : List SlotEvent} (h : m.status ≠ .running)
    (hrun : run (step config) m events = some m') : events = [] ∧ m' = m :=
  run_of_stuck (fun _ _ hstep => h (step_round hstep).1) hrun

/-! ### A timeout before the first slot -/

/-- After the first proof, one for the slot after it arrives before any timeout. -/
def extensionBeforeTimeout (first : PoTInfo) : List SlotEvent → Bool
  | .recv (.ok info) :: events => decide (NextSlot first info) || extensionBeforeTimeout first events
  | _ => false

/-- After some timeouts a first proof arrives, and then one for the slot after it with
no other timeout between them. -/
def extensionAfterTimeouts : List SlotEvent → Bool
  | .elapsed :: events => extensionAfterTimeouts events
  | .recv (.ok first) :: events => extensionBeforeTimeout first events
  | _ => false

/-- A timeout fires before the first slot, and none between it and the next slot. -/
def extensionAfterTimeout : List SlotEvent → Bool
  | .elapsed :: events => extensionAfterTimeouts events
  | _ => false

/-- From the first slot, with a timeout remembered in silence. If the second slot comes
before another timeout, the recovery has no stall before it, and otherwise the timeout
announces the stall that it closes. -/
theorem closed_started_iff {events : List SlotEvent} {first : PoTInfo} {last : SlotDetails}
    (hlast : m.slots.last? = some last) (hproof : last.proof = first.proof)
    (htrace : m.stallState.trace = []) (hfired : m.timeoutFired ≠ none)
    (hrun : run (step config) m events = some m') :
    Closed m'.stallState.trace ↔ extensionBeforeTimeout first events = false := by
  induction events generalizing m with
  | nil =>
      cases hrun
      rw [htrace]
      exact iff_of_true closed_nil rfl
  | cons e events ih =>
      obtain ⟨m₁, hstep, hrest⟩ := run_cons_eq_some.mp hrun
      have hround := (step_round hstep).2
      cases hround with
      | first info hnone =>
          rw [hlast] at hnone
          cases hnone
      | «extends» info _ hlast' hnext =>
          -- The recovery alert has no stall before it.
          rw [hlast] at hlast'
          cases hlast'
          have hnext' : NextSlot first info := by
            rw [NextSlot, ← hproof]
            exact hnext
          obtain ⟨duration, hduration⟩ := Option.ne_none_iff_exists'.mp hfired
          have hopen : ¬ Closed (m.extend config last info
              (info.receivedAt.durationSince m.lastInstant)).stallState.trace := by
            rw [stallState_extend, htrace]
            intro hclosed
            simp only [stallState, hduration] at hclosed
            cases (closed_append_recovery.mp hclosed).2
          exact iff_of_false (run_not_closed hopen hrest) (by simp [extensionBeforeTimeout, hnext'])
      | rejects info _ hlast' hnext hmax =>
          rw [hlast] at hlast'
          cases hlast'
          have hnext' : ¬ NextSlot first info := by
            rw [NextSlot, ← hproof]
            exact hnext
          rw [ih hlast htrace hfired hrest]
          simp [extensionBeforeTimeout, hnext']
      | overflows info _ hlast' hmax =>
          rw [hlast] at hlast'
          cases hlast'
          have hnext' : ¬ NextSlot first info := by
            have hlt := info.proof.slot.toNat_lt
            rw [NextSlot, ← hproof]
            omega
          obtain ⟨rfl, rfl⟩ := run_ended (fun h => by cases h) hrest
          refine iff_of_true ?_ (by simp [extensionBeforeTimeout, hnext'])
          exact htrace ▸ closed_nil
      | closed err =>
          obtain ⟨rfl, rfl⟩ := run_ended (fun h => by cases h) hrest
          exact iff_of_true (htrace ▸ closed_nil) rfl
      | elapsed =>
          -- The timeout announces the stall.
          refine iff_of_true ?_ rfl
          have htracked : m.timeout.stallState.Tracked := by
            rw [stallState_timeout_of_some hlast, htrace]
            exact ⟨closed_append_stall.mpr closed_nil, pending_append_stall _ _⟩
          exact (run_tracked (hlast ▸ Option.some_ne_none _) htracked hrest).closed

/-- Before the first slot, with a timeout remembered in silence. The first slot does not
recover, so all depends on whether it is extended before another timeout. -/
theorem closed_waiting_iff {events : List SlotEvent} (hlast : m.slots.last? = none)
    (htrace : m.stallState.trace = []) (hfired : m.timeoutFired ≠ none)
    (hrun : run (step config) m events = some m') :
    Closed m'.stallState.trace ↔ extensionAfterTimeouts events = false := by
  induction events generalizing m with
  | nil =>
      cases hrun
      rw [htrace]
      exact iff_of_true closed_nil rfl
  | cons e events ih =>
      obtain ⟨m₁, hstep, hrest⟩ := run_cons_eq_some.mp hrun
      have hround := (step_round hstep).2
      cases hround with
      | first info _ =>
          -- The first slot keeps the timeout, unlike an extension.
          have hlast' : (m.start info).slots.last? = some
              { proof := info.proof, duration := info.receivedAt.durationSince m.lastInstant } :=
            BoundedVec.last?_forcePush (by decide) _ _
          exact closed_started_iff hlast' rfl htrace hfired hrest
      | «extends» info last hsome _ =>
          rw [hlast] at hsome
          cases hsome
      | rejects info last hsome _ _ =>
          rw [hlast] at hsome
          cases hsome
      | overflows info last hsome _ =>
          rw [hlast] at hsome
          cases hsome
      | closed err =>
          obtain ⟨rfl, rfl⟩ := run_ended (fun h => by cases h) hrest
          exact iff_of_true (htrace ▸ closed_nil) rfl
      | elapsed =>
          have htrace' : m.timeout.stallState.trace = [] := by
            rw [stallState_timeout_of_none hlast]
            exact htrace
          exact ih (show m.timeout.slots.last? = none from hlast) htrace' (Option.some_ne_none _)
            hrest

/-- The slot monitor's recoveries close its stalls unless a timeout was
remembered in silence. -/
theorem closed_iff {start₀ : Instant} {events : List SlotEvent}
    (hrun : run (step config) (init start₀) events = some m') :
    Closed m'.stallState.trace ↔ extensionAfterTimeout events = false := by
  cases events with
  | nil =>
      cases hrun
      exact iff_of_true closed_nil rfl
  | cons e events =>
      obtain ⟨m₁, hstep, hrest⟩ := run_cons_eq_some.mp hrun
      have hround := (step_round hstep).2
      cases hround with
      | first info _ =>
          -- A first slot before any timeout: from now on every timeout is announced.
          have hlast : ((init start₀).start info).slots.last? ≠ none := by
            rw [start, BoundedVec.last?_forcePush (by decide)]
            exact Option.some_ne_none _
          exact iff_of_true (run_tracked hlast StallState.tracked_init hrest).closed rfl
      | «extends» info last hsome _ => cases hsome
      | rejects info last hsome _ _ => cases hsome
      | overflows info last hsome _ => cases hsome
      | closed err =>
          obtain ⟨rfl, rfl⟩ := run_ended (fun h => by cases h) hrest
          exact iff_of_true closed_nil rfl
      | elapsed => exact closed_waiting_iff rfl rfl (Option.some_ne_none _) hrest

end SlotMonitor

/-! ### The stall and reorg monitor -/

/-- A message with a block. -/
def WatchEvent.bringsBlock : WatchEvent → Bool
  | .recv (.ok blocksExt) => !blocksExt.blocks.isEmpty
  | _ => false

namespace Watcher

variable {config : StallAndReorgConfig} {w w' : Watcher} {e : WatchEvent}

/-- A timeout fires before the first block, and a block arrives. -/
def blockAfterTimeout : List WatchEvent → Bool
  | .elapsed :: events => events.any WatchEvent.bringsBlock
  | _ => false

/-- The duration that the next timeout remembers. -/
def nextStall (config : StallAndReorgConfig) (w : Watcher) : Nat :=
  match w.timeoutFired with
  | some timeout => Duration.saturatingAdd timeout config.nonBlockImportThreshold
  | none => config.nonBlockImportThreshold

/-- Everything that a round can do. -/
inductive Round (config : StallAndReorgConfig) (w : Watcher) : WatchEvent → Watcher → Prop where
  | block (blocksExt : BlocksExt) (latest : BlockExt) (hlast : blocksExt.blocks.getLast? = some latest)
      (hstatus : (w.recvBlocks config blocksExt).status = .running)
      (hbest : (w.recvBlocks config blocksExt).maybeLastBestBlock ≠ none)
      (hstall : (w.recvBlocks config blocksExt).stallState =
        { fired := none, trace := w.stallState.trace ++ (w.stallState.fired.map .recovery).toList }) :
      Round config w (.recv (.ok blocksExt)) (w.recvBlocks config blocksExt)
  | empty (blocksExt : BlocksExt) (hlast : blocksExt.blocks.getLast? = none) :
      Round config w (.recv (.ok blocksExt)) { w with timeoutFired := none, status := .panicked }
  | closed (err : RecvError) :
      Round config w (.recv (.error err)) { w with status := .returned (.broadRecvErr err) }
  | elapsed : Round config w .elapsed (w.timeout config)

/-- A recovery alert of the block monitor is the mark of a recovery, one exactly when a
timeout is remembered. -/
@[simp] theorem filterMap_chainMark_recoveryAlerts (latest : HashAndNumber) (fired : Option Nat) :
    (recoveryAlerts latest fired).filterMap Alert.chainMark? = (fired.map .recovery).toList := by
  cases fired <;> rfl

/-- A reorg alert is no mark of a stall or of a recovery. -/
@[simp] theorem filterMap_chainMark_reorgAlerts (latest : HashAndNumber) (data : Option ReorgData) :
    (reorgAlerts config latest data).filterMap Alert.chainMark? = [] := by
  cases data with
  | none => rfl
  | some data =>
      simp only [reorgAlerts]
      split <;> rfl

/-- The reaction to a message is a round: one of a block when the message has a last
block, and the panic on an empty message otherwise. -/
theorem recvBlocks_round (hrunning : w.status = .running) (blocksExt : BlocksExt) :
    Round config w (.recv (.ok blocksExt)) (w.recvBlocks config blocksExt) := by
  cases hlast : blocksExt.blocks.getLast? with
  | none =>
      have heq : w.recvBlocks config blocksExt =
          { w with timeoutFired := none, status := .panicked } := by
        simp only [recvBlocks, hlast]
      rw [heq]
      exact .empty blocksExt hlast
  | some latest =>
      refine .block blocksExt latest hlast ?_ ?_ ?_ <;> simp [recvBlocks, hlast, hrunning, stallState]

/-- Only a running monitor steps, and its step is a round. The rounds are the cases of
every invariant of the block monitor below. -/
theorem step_round (h : w.step config e = some w') : w.status = .running ∧ Round config w e w' := by
  obtain ⟨timeoutFired, best, alerts, status⟩ := w
  cases status with
  | running =>
      cases e with
      | recv result =>
          cases result with
          | ok blocksExt =>
              cases h
              exact ⟨rfl, recvBlocks_round rfl blocksExt⟩
          | error err =>
              cases h
              exact ⟨rfl, .closed err⟩
      | elapsed =>
          cases h
          exact ⟨rfl, .elapsed⟩
  | returned err => cases h
  | panicked => cases h

/-- A timeout after the first block is announced. -/
theorem stallState_timeout_of_some {best : HashAndNumber}
    (hbest : w.maybeLastBestBlock = some best) :
    (w.timeout config).stallState =
      { fired := some (w.nextStall config)
        trace := w.stallState.trace ++ [.stall (w.nextStall config)] } := by
  simp only [stallState, timeout, hbest, List.filterMap_append]
  rfl

/-- A timeout before the first block is not. -/
theorem stallState_timeout_of_none (hbest : w.maybeLastBestBlock = none) :
    (w.timeout config).stallState = { w.stallState with fired := some (w.nextStall config) } := by
  simp only [stallState, timeout, hbest, List.append_nil]
  rfl

/-- A monitor that has ended takes no event. -/
theorem run_ended {events : List WatchEvent} (h : w.status ≠ .running)
    (hrun : run (step config) w events = some w') : events = [] ∧ w' = w :=
  run_of_stuck (fun _ _ hstep => h (step_round hstep).1) hrun

/-- A recovery without a stall is never undone. It is the same argument as for the slot
monitor, about the rounds of this one. -/
theorem run_not_closed {events : List WatchEvent} (h : ¬ Closed w.stallState.trace)
    (hrun : run (step config) w events = some w') : ¬ Closed w'.stallState.trace := by
  refine run_invariant (P := fun w : Watcher => ¬ Closed w.stallState.trace)
    (fun w e w' h hstep => ?_) events w w' h hrun
  have hround := (step_round hstep).2
  cases hround with
  | block blocksExt latest _ _ _ hstall =>
      rw [hstall]
      exact StallStep.recover.not_closed h
  | empty blocksExt _ => exact h
  | closed err => exact h
  | elapsed =>
      cases hbest : w.maybeLastBestBlock with
      | none =>
          rw [stallState_timeout_of_none hbest]
          exact h
      | some best =>
          rw [stallState_timeout_of_some hbest]
          exact (StallStep.stall _).not_closed h

/-- Once a block has been seen, every timeout is announced, so the alerts of the rest of
the run close. -/
theorem run_closed {events : List WatchEvent} (hbest : w.maybeLastBestBlock ≠ none)
    (htracked : w.stallState.Tracked) (hrun : run (step config) w events = some w') :
    Closed w'.stallState.trace := by
  induction events generalizing w with
  | nil =>
      cases hrun
      exact htracked.closed
  | cons e events ih =>
      obtain ⟨w₁, hstep, hrest⟩ := run_cons_eq_some.mp hrun
      have hround := (step_round hstep).2
      cases hround with
      | block blocksExt latest _ _ hbest' hstall =>
          refine ih hbest' ?_ hrest
          rw [hstall]
          exact (StallStep.recover.tracked htracked).resolve_right fun ⟨d, hd⟩ => by
            cases congrArg StallState.fired hd
      | empty blocksExt _ =>
          obtain ⟨rfl, rfl⟩ := run_ended (fun h => by cases h) hrest
          exact htracked.closed
      | closed err =>
          obtain ⟨rfl, rfl⟩ := run_ended (fun h => by cases h) hrest
          exact htracked.closed
      | elapsed =>
          obtain ⟨best, hsome⟩ := Option.ne_none_iff_exists'.mp hbest
          have htracked' : (w.timeout config).stallState.Tracked := by
            rw [stallState_timeout_of_some hsome]
            exact ⟨closed_append_stall.mpr htracked.closed, pending_append_stall _ _⟩
          exact ih (show (w.timeout config).maybeLastBestBlock ≠ none from hbest) htracked' hrest

/-- Before the first block, with a timeout remembered in silence. Any block recovers
from it, without a stall before, so the alerts close exactly when none comes. -/
theorem closed_waiting_iff {events : List WatchEvent} (hbest : w.maybeLastBestBlock = none)
    (htrace : w.stallState.trace = []) (hfired : w.timeoutFired ≠ none)
    (hrun : run (step config) w events = some w') :
    Closed w'.stallState.trace ↔ events.any WatchEvent.bringsBlock = false := by
  induction events generalizing w with
  | nil =>
      cases hrun
      rw [htrace]
      exact iff_of_true closed_nil rfl
  | cons e events ih =>
      obtain ⟨w₁, hstep, hrest⟩ := run_cons_eq_some.mp hrun
      have hround := (step_round hstep).2
      cases hround with
      | block blocksExt latest hlast _ _ hstall =>
          -- The recovery alert of the first block has no stall before it.
          obtain ⟨duration, hduration⟩ := Option.ne_none_iff_exists'.mp hfired
          have hopen : ¬ Closed (w.recvBlocks config blocksExt).stallState.trace := by
            rw [hstall, htrace]
            intro hclosed
            simp only [stallState, hduration] at hclosed
            cases (closed_append_recovery.mp hclosed).2
          have hne : blocksExt.blocks ≠ [] := by
            intro hnil
            rw [hnil] at hlast
            cases hlast
          exact iff_of_false (run_not_closed hopen hrest) (by simp [WatchEvent.bringsBlock, hne])
      | empty blocksExt hlast =>
          obtain ⟨rfl, rfl⟩ := run_ended (fun h => by cases h) hrest
          -- A message without a block makes the monitor panic, and sends no alert.
          refine iff_of_true (htrace ▸ closed_nil) ?_
          simp [WatchEvent.bringsBlock, List.getLast?_eq_none_iff.mp hlast]
      | closed err =>
          obtain ⟨rfl, rfl⟩ := run_ended (fun h => by cases h) hrest
          exact iff_of_true (htrace ▸ closed_nil) rfl
      | elapsed =>
          have htrace' : (w.timeout config).stallState.trace = [] := by
            rw [stallState_timeout_of_none hbest]
            exact htrace
          exact ih (show (w.timeout config).maybeLastBestBlock = none from hbest) htrace'
            (Option.some_ne_none _) hrest

/-- From the start of the block monitor on, its alerts close exactly when no block
comes after a timeout that fired before the first block. The timeouts before the
first block are remembered but not announced, so only such a block sends a recovery
without a stall. -/
theorem closed_iff {events : List WatchEvent}
    (hrun : run (step config) init events = some w') :
    Closed w'.stallState.trace ↔ blockAfterTimeout events = false := by
  cases events with
  | nil =>
      cases hrun
      exact iff_of_true closed_nil rfl
  | cons e events =>
      obtain ⟨w₁, hstep, hrest⟩ := run_cons_eq_some.mp hrun
      have hround := (step_round hstep).2
      cases hround with
      | block blocksExt latest _ _ hbest hstall =>
          refine iff_of_true (run_closed hbest ?_ hrest) rfl
          rw [hstall]
          exact StallState.tracked_init
      | empty blocksExt _ =>
          obtain ⟨rfl, rfl⟩ := run_ended (fun h => by cases h) hrest
          exact iff_of_true closed_nil rfl
      | closed err =>
          obtain ⟨rfl, rfl⟩ := run_ended (fun h => by cases h) hrest
          exact iff_of_true closed_nil rfl
      | elapsed => exact closed_waiting_iff rfl rfl (Option.some_ne_none _) hrest

end Watcher

/-! ### Both monitors -/

/-- Recovery alerts close announced stalls, except after a timeout before the first
block or slot. In every run of the stall and reorg monitor each recovery alert stands
right after a stall alert of its duration, among the alerts of these two kinds, if and
only if no block arrives after a timeout that fired before all blocks. In every run of
the slot monitor the same holds, if and only if no second slot arrives after a timeout
that fired before the first one, without another timeout between the two slots. -/
theorem recoveries_close_stalls_iff (config : StallAndReorgConfig) (watchEvents : List WatchEvent)
    (w : Watcher) (slotsConfig : SlotsConfig) (start₀ : Instant) (slotEvents : List SlotEvent)
    (m : SlotMonitor) (hw : run (Watcher.step config) Watcher.init watchEvents = some w)
    (hm : run (SlotMonitor.step slotsConfig) (SlotMonitor.init start₀) slotEvents = some m) :
    (Closed (w.alerts.filterMap Alert.chainMark?) ↔
      Watcher.blockAfterTimeout watchEvents = false) ∧
    (Closed (m.alerts.filterMap Alert.timekeeperMark?) ↔
      SlotMonitor.extensionAfterTimeout slotEvents = false) :=
  ⟨Watcher.closed_iff hw, SlotMonitor.closed_iff hm⟩

/-! ### Runs with an early timeout -/

/-- The defaults of the command line: `60s` and `6`. -/
def defaultStallAndReorgConfig : StallAndReorgConfig :=
  { nonBlockImportThreshold := Duration.fromSecs 60, reorgDepthThreshold := 6 }

/-- A message with one block. -/
def oneBlock : BlocksExt where
  blocks := [{ number := 1, hash := 2, parentHash := 1, stateRoot := 0, extrinsicsRoot := 0 }]
  maybeReorgData := none

/-- A stall after the first block, and one after a timeout before the first slot, that
are announced and closed. -/
theorem recoveries_close_stalls_iff_runs :
    (∃ w, run (Watcher.step defaultStallAndReorgConfig) Watcher.init
        [.recv (.ok oneBlock), .elapsed, .recv (.ok oneBlock)] = some w ∧ w.alerts.length = 2 ∧
      Closed (w.alerts.filterMap Alert.chainMark?)) ∧
    ∃ m, run (SlotMonitor.step .default) (SlotMonitor.init (.ofSecs 0))
        [.elapsed, gossip 31 5, .elapsed, gossip 62 6] = some m ∧ m.alerts.length = 3 ∧
      Closed (m.alerts.filterMap Alert.timekeeperMark?) := by
  have hboth := recoveries_close_stalls_iff defaultStallAndReorgConfig
    [.recv (.ok oneBlock), .elapsed, .recv (.ok oneBlock)] _ .default (.ofSecs 0)
    [.elapsed, gossip 31 5, .elapsed, gossip 62 6] _ rfl rfl
  exact ⟨⟨_, rfl, rfl, hboth.1.mpr rfl⟩, ⟨_, rfl, rfl, hboth.2.mpr rfl⟩⟩

/-- A timeout before the first block, and one before the first slot. The alerts that
follow are a recovery, with no stall before it. -/
theorem recovery_without_stall :
    (∃ w, run (Watcher.step defaultStallAndReorgConfig) Watcher.init
        [.elapsed, .recv (.ok oneBlock)] = some w ∧
      w.alerts.filterMap Alert.chainMark? = [.recovery (Duration.fromSecs 60)] ∧
      ¬ Closed (w.alerts.filterMap Alert.chainMark?)) ∧
    ∃ m, run (SlotMonitor.step .default) (SlotMonitor.init (.ofSecs 0))
        [.elapsed, gossip 31 5, gossip 32 6] = some m ∧
      m.alerts.filterMap Alert.timekeeperMark? = [.recovery (Duration.fromSecs 30)] ∧
      ¬ Closed (m.alerts.filterMap Alert.timekeeperMark?) := by
  refine ⟨⟨_, rfl, rfl, fun h => ?_⟩, ⟨_, rfl, rfl, fun h => ?_⟩⟩
  · cases h [] (.recovery (Duration.fromSecs 60)) [] rfl _ rfl
  · cases h [] (.recovery (Duration.fromSecs 30)) [] rfl _ rfl

end ChainAlerter
