import ChainAlerter.Model.Types

/-!
# `ChainAlerter.Model.Alert`: the alerts

The `Alert` of `alerter/src/slack.rs`, with the structures it carries: the
events of `event_types.rs`, the chain alerts of `stall_and_reorg.rs` and the
slot alerts of `slots.rs`. The monitors put alerts into an unbounded channel, so
a monitor's alerts are a list, oldest first.

A `Duration` of the source is here its number of nanoseconds, at most
`Duration::MAX`.
-/

set_option autoImplicit false

namespace ChainAlerter

/-- `Duration::MAX`: `u64::MAX` seconds and `999_999_999` nanoseconds. -/
def Duration.MAX : Nat := 2 ^ 64 * 10 ^ 9 - 1

/-- `Duration::saturating_add`. -/
def Duration.saturatingAdd (a b : Nat) : Nat := min (a + b) Duration.MAX

/-! ### Events -/

/-- Which side of a transfer the configured account is on. -/
inductive TransferDirection where
  | sender
  | receiver
  deriving DecidableEq, Repr

/-- The event from which the transfer was read. -/
inductive TransferType where
  | transfer
  | withdraw
  | deposit
  deriving DecidableEq, Repr

/-- A balance transfer of a configured account. -/
structure TransferKnownAccountEvent where
  direction : TransferDirection
  transferType : TransferType
  name : String
  address : String
  amount : Nat
  deriving DecidableEq, Repr

/-- Why an operator was slashed, with the block or the receipt that shows it. -/
inductive SlashedReason where
  | invalidBundle (number : Nat)
  | badExecutionReceipt (hash : BlockHash)
  deriving DecidableEq, Repr

/-- The overarching event type. -/
inductive Event where
  | transfer (transfer : TransferKnownAccountEvent)
  | domainRuntimeUpgraded (runtimeId : Nat)
  | domainInstantiated (domainId : Nat)
  | fraudProofProcessed (domainId : Nat) (newHeadReceiptNumber : Option Nat)
  | operatorSlashed (operatorId : Nat) (reason : SlashedReason)
  | operatorOffline (operatorId domainId submittedBundles expectedBundles
      minRequiredBundles : Nat)
  | sudo
  | codeUpdated
  deriving DecidableEq, Repr

/-! ### Chain and slot alerts -/

/-- No block has come for this duration after the last one. -/
structure ChainStall where
  lastBlock : HashAndNumber
  duration : Nat
  deriving DecidableEq, Repr

/-- A block has come after a stall of this duration. -/
structure ChainRecovery where
  bestBlock : HashAndNumber
  duration : Nat
  deriving DecidableEq, Repr

/-- The best block has left a branch. The common block is where the old and the
new branch meet. -/
structure ChainReorg where
  bestBlock : HashAndNumber
  commonBlock : HashAndNumber
  enacted : List HashAndNumber
  retracted : List HashAndNumber
  deriving DecidableEq, Repr

/-- No slot has been taken for this duration after the last one. -/
structure TimekeeperStall where
  lastSlot : Nat
  duration : Nat
  deriving DecidableEq, Repr

/-- A slot has been taken after a stall of this duration. -/
structure TimekeeperRecovery where
  slot : Nat
  duration : Nat
  deriving DecidableEq, Repr

/-- The time between two slots is above the threshold. -/
structure SlowSlot where
  slot : Nat
  previousSlot : Nat
  slotTime : Nat
  threshold : Nat
  deriving DecidableEq, Repr

/-- The average slot time of the window is above the threshold. -/
structure AvgSlowSlot where
  slot : Nat
  slotCount : Nat
  avgSlotTime : Nat
  threshold : Nat
  deriving DecidableEq, Repr

/-- Slack alert message. -/
inductive Alert where
  | event (event : Event)
  | chainStall (stall : ChainStall)
  | chainRecovery (recovery : ChainRecovery)
  | reorg (reorg : ChainReorg)
  | timekeeperStall (stall : TimekeeperStall)
  | timekeeperRecovery (recovery : TimekeeperRecovery)
  | slowSlot (slot : SlowSlot)
  | avgSlowSlots (slots : AvgSlowSlot)
  deriving DecidableEq, Repr

/-- The reorg of a reorg alert. -/
def Alert.reorg? : Alert → Option ChainReorg
  | .reorg r => some r
  | _ => none

end ChainAlerter
