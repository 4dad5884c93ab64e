import ChainAlerter.Library.BoundedVec
import ChainAlerter.Model.StallAndReorg

/-!
# `ChainAlerter.Model.Slots`: the slot monitor

`monitor_slots` of `alerter/src/slots.rs`, with the `PoTInfo` of
`p2p_network.rs` that it receives. Each round of its loop waits for a gossiped
proof or for 30 seconds to elapse, so the monitor is a step function over these
two events. Proofs come from any peer and are not verified: a slot is any `u64`.

The builds check overflows, so three operations of a round can panic: the
increment of the last slot, the sum of the durations in the window and its
division. A panic is a status that no event leaves.
-/

set_option autoImplicit false

namespace ChainAlerter

open ChainAlerter.Library

/-! ### Times -/

/-- `std::time::Instant`: seconds in 64 bits and the nanoseconds within the second,
counted here in nanoseconds from the earliest instant. -/
structure Instant where
  nanos : Nat
  nanos_lt : nanos < 2 ^ 64 * 10 ^ 9
  deriving DecidableEq, Repr

/-- The instant a number of seconds after the earliest one. -/
def Instant.ofSecs (secs : UInt64) : Instant :=
  { nanos := secs.toNat * 10 ^ 9
    nanos_lt := Nat.mul_lt_mul_of_pos_right secs.toNat_lt (Nat.pow_pos (Nat.succ_pos 9)) }

/-- `Instant::duration_since`, which is zero for a later instant. -/
def Instant.durationSince (now earlier : Instant) : Nat := now.nanos - earlier.nanos

/-- `Duration::from_secs`. -/
def Duration.fromSecs (secs : Nat) : Nat := secs * 10 ^ 9

/-- `+` of durations. `none` is the panic of an overflow. -/
def Duration.add (a b : Nat) : Option Nat := if a + b ≤ Duration.MAX then some (a + b) else none

/-- `Div::div` of a duration by a count. `none` is the panic of a division by zero. -/
def Duration.div (a : Nat) (count : Nat) : Option Nat := if count = 0 then none else some (a / count)

/-! ### Slots and proofs -/

/-- A slot is a number of 64 bits. -/
abbrev Slot := UInt64

/-- `slot + 1`. `none` is the panic of an overflow. -/
def Slot.succ (slot : Slot) : Option Slot := if slot.toNat + 1 < 2 ^ 64 then some (slot + 1) else none

/-- A gossiped proof. Its seed, iterations and checkpoints are never read. -/
structure GossipProof where
  slot : Slot
  deriving DecidableEq, Repr

/-- A proof and the time at which the notification was received. -/
structure PoTInfo where
  receivedAt : Instant
  proof : GossipProof
  deriving DecidableEq, Repr

/-- An entry of the window: a recorded proof, and the time since the one before it. -/
structure SlotDetails where
  proof : GossipProof
  duration : Nat
  deriving DecidableEq, Repr

/-- Config for slots. -/
structure SlotsConfig where
  perSlotThreshold : Nat
  avgSlotThreshold : Nat

/-- The defaults of the command line: `1.2s` and `1.1s`. -/
def SlotsConfig.default : SlotsConfig :=
  { perSlotThreshold := 1200000000, avgSlotThreshold := 1100000000 }

/-- The bound of the window of slots. -/
def SLOT_WINDOW : Nat := 600

/-- `slot_timeout`. -/
def slotTimeout : Nat := Duration.fromSecs 30

/-! ### The monitor -/

/-- What ends a wait of the monitor: a result of `slot_stream.recv()`, or the timeout. -/
inductive SlotEvent where
  | recv (result : Except RecvError PoTInfo)
  | elapsed

/-- The state of the monitor: its three locals, the alerts it has sent, oldest first,
and its status. -/
structure SlotMonitor where
  timeoutFired : Option Nat
  lastInstant : Instant
  slots : BoundedVec SlotDetails SLOT_WINDOW
  alerts : List Alert
  status : WatchStatus
  deriving DecidableEq

namespace SlotMonitor

/-- The start of `monitor_slots`, at the time `start`. -/
def init (start : Instant) : SlotMonitor :=
  { timeoutFired := none, lastInstant := start, slots := .empty, alerts := [], status := .running }

/-- The task has panicked. -/
def panic (m : SlotMonitor) : SlotMonitor := { m with status := .panicked }

/-- The recovery alert of an extension that ends a stall. -/
def recoveryAlerts (proof : GossipProof) : Option Nat → List Alert
  | some timeout => [.timekeeperRecovery { slot := proof.slot.toNat, duration := timeout }]
  | none => []

/-- The alert of an extension that took longer than the threshold. -/
def slowSlotAlerts (config : SlotsConfig) (lastSlot : SlotDetails) (proof : GossipProof)
    (duration : Nat) : List Alert :=
  if config.perSlotThreshold < duration then
    [.slowSlot { slot := proof.slot.toNat, previousSlot := lastSlot.proof.slot.toNat
                 slotTime := duration, threshold := config.perSlotThreshold }]
  else []

/-- The average of the durations in the window. `none` is a panic, of the sum or of
the division. -/
def avgSlotTime (slots : BoundedVec SlotDetails SLOT_WINDOW) : Option Nat := do
  let sum ← slots.elems.foldlM (fun acc x => Duration.add acc x.duration) 0
  Duration.div sum slots.len

/-- The alert of a full window with an average above the threshold. -/
def avgSlowSlotAlerts (config : SlotsConfig) (slots : BoundedVec SlotDetails SLOT_WINDOW)
    (proof : GossipProof) (avgSlotTime : Nat) : List Alert :=
  if slots.isFull && decide (config.avgSlotThreshold < avgSlotTime) then
    [.avgSlowSlots { slot := proof.slot.toNat, slotCount := slots.len
                     threshold := config.avgSlotThreshold, avgSlotTime := avgSlotTime }]
  else []

/-- A proof that extends the timekeeper chain. -/
def extend (config : SlotsConfig) (m : SlotMonitor) (lastSlot : SlotDetails) (info : PoTInfo)
    (duration : Nat) : SlotMonitor :=
  let lastTimeout := m.timeoutFired
  let slots := m.slots.forcePush { proof := info.proof, duration := duration }
  let m' := { m with
    timeoutFired := none
    lastInstant := info.receivedAt
    slots := slots
    alerts := m.alerts ++ recoveryAlerts info.proof lastTimeout
      ++ slowSlotAlerts config lastSlot info.proof duration }
  -- The average is computed after both alerts have been sent.
  match avgSlotTime slots with
  | none => m'.panic
  | some avgSlotTime =>
      { m' with alerts := m'.alerts ++ avgSlowSlotAlerts config slots info.proof avgSlotTime }

/-- A received proof. The first one starts the window, whatever its slot. After it only
the next slot is taken. -/
def recvSlot (config : SlotsConfig) (m : SlotMonitor) (info : PoTInfo) : SlotMonitor :=
  let duration := info.receivedAt.durationSince m.lastInstant
  match m.slots.last? with
  | none =>
      -- The first slot leaves `timeout_fired` as it is.
      { m with
        slots := m.slots.forcePush { proof := info.proof, duration := duration }
        lastInstant := info.receivedAt }
  | some lastSlot =>
      match lastSlot.proof.slot.succ with
      | none => m.panic
      | some nextSlot =>
          -- Any other slot is dropped, a later one as well.
          if info.proof.slot ≠ nextSlot then m
          else m.extend config lastSlot info duration

/-- The timeout. The stall grows by 30 seconds each time, and is alerted once a slot
has been seen. -/
def timeout (m : SlotMonitor) : SlotMonitor :=
  let nonImportDuration :=
    match m.timeoutFired with
    | some timeout => Duration.saturatingAdd timeout slotTimeout
    | none => slotTimeout
  let stallAlerts :=
    match m.slots.last? with
    | some lastSlot =>
        [Alert.timekeeperStall { lastSlot := lastSlot.proof.slot.toNat
                                 duration := nonImportDuration }]
    | none => []
  { m with timeoutFired := some nonImportDuration, alerts := m.alerts ++ stallAlerts }

/-- One round of the loop. -/
def step (config : SlotsConfig) (m : SlotMonitor) (event : SlotEvent) : Option SlotMonitor :=
  match m.status, event with
  | .running, .recv (.ok info) => some (m.recvSlot config info)
  | .running, .recv (.error err) => some { m with status := .returned (.broadRecvErr err) }
  | .running, .elapsed => some m.timeout
  | _, _ => none

/-- The last recorded slot. -/
def lastSlot (m : SlotMonitor) : Option Slot := m.slots.last?.map (fun details => details.proof.slot)

end SlotMonitor

end ChainAlerter
