import ChainAlerter.Library.DecimalText
import ChainAlerter.Model.Alert

/-!
# `ChainAlerter.Model.MdFormat`: the texts of the alerts

`MdFormat` of `alerter/src/md_format.rs`. Every alert has a text, except for a
transfer: its amount is divided by a power of ten, and this can panic. The builds
check overflows, so the power can, and the conversions to `Decimal` do.

`Decimal` is that of `rust_decimal`. Its operations, and the functions of other crates
that write times and hashes, are parameters of the model (`FormatExternals`). What the
proofs assume of the decimal ones is `FormatExternals.Lawful`.
-/

set_option autoImplicit false

namespace ChainAlerter

open ChainAlerter.Library

/-! ### Decimal numbers -/

/-- `rust_decimal::Decimal`: a mantissa of 96 bits, and how many of its digits stand
after the point. Amounts are never negative, so there is no sign. -/
structure Decimal where
  mantissa : Nat
  scale : Nat
  mantissa_lt : mantissa < 2 ^ 96
  scale_le : scale ≤ 28
  deriving DecidableEq

/-- The number itself. -/
def Decimal.value (x : Decimal) : ℚ := x.mantissa / 10 ^ x.scale

/-- `u128::pow`. `none` is the panic of an overflow. -/
def u128Pow (base exp : Nat) : Option Nat := if base ^ exp < 2 ^ 128 then some (base ^ exp) else none

/-! ### Code outside the repository -/

/-- The functions of other crates that the formatter calls.

- `decimalFromU128` is `Decimal::from`, which is `none` where it panics.
- `decimalDiv` is `/` of decimals, which is `none` where it panics.
- `displayDecimal` and `displayHash` are the `Display` of `Decimal` and of `H256`.
- `formatDuration` is that of `humantime`, from nanoseconds.
- `hexEncode` is `hex::encode`, and `urlEncode` is `urlencoding::encode`. -/
structure FormatExternals where
  decimalFromU128 : Nat → Option Decimal
  decimalDiv : Decimal → Decimal → Option Decimal
  displayDecimal : Decimal → String
  displayHash : BlockHash → String
  formatDuration : Nat → String
  hexEncode : BlockHash → String
  urlEncode : String → String

/-- What `rust_decimal` promises: a conversion is exact, or it panics because the number
has more than 96 bits; a quotient that is a `Decimal` is computed as it is; a number is
printed in full. -/
structure FormatExternals.Lawful (env : FormatExternals) : Prop where
  decimalFromU128_of_lt : ∀ n < 2 ^ 96, ∃ x, env.decimalFromU128 n = some x ∧ x.value = n
  decimalFromU128_of_le : ∀ n < 2 ^ 128, 2 ^ 96 ≤ n → env.decimalFromU128 n = none
  decimalDiv_of_eq : ∀ x y q : Decimal, y.value ≠ 0 → q.value = x.value / y.value →
    ∃ q', env.decimalDiv x y = some q' ∧ q'.value = q.value
  decimalValue_displayDecimal : ∀ x, decimalValue (env.displayDecimal x).toList = some x.value

/-! ### The formatter -/

/-- Config for the formatter. -/
structure FormatConfig where
  rpcUrl : String
  tokenName : String
  tokenDecimals : UInt8

/-- What panics when an amount is formatted: a conversion to `Decimal`, the power of
ten, or the division. -/
inductive FormatPanic where
  | conversion
  | overflow
  | division
  deriving DecidableEq, Repr

/-- The value of a call, or the panic of the caller. -/
def orPanic {α : Type} (reason : FormatPanic) : Option α → Except FormatPanic α
  | some a => .ok a
  | none => .error reason

/-- The `Debug` text of a direction. -/
def TransferDirection.debug : TransferDirection → String
  | .sender => "Sender"
  | .receiver => "Receiver"

/-- The `Debug` text of a transfer type. -/
def TransferType.debug : TransferType → String
  | .transfer => "Transfer"
  | .withdraw => "Withdraw"
  | .deposit => "Deposit"

/-- The `Debug` text of a `DomainId`. -/
def debugDomainId (domainId : Nat) : String := s!"DomainId({domainId})"

namespace MdFormat

variable (env : FormatExternals) (config : FormatConfig)

/-- The operands are evaluated from left to right, the power before its conversion. -/
def formatBalance (balance : Nat) : Except FormatPanic String := do
  let dividend ← orPanic .conversion (env.decimalFromU128 balance)
  let power ← orPanic .overflow (u128Pow 10 config.tokenDecimals.toNat)
  let divisor ← orPanic .conversion (env.decimalFromU128 power)
  let scaledBalance ← orPanic .division (env.decimalDiv dividend divisor)
  return env.displayDecimal scaledBalance ++ " " ++ config.tokenName

/-- The text of a transfer before its amount. -/
def transferHead (transfer : TransferKnownAccountEvent) : String :=
  "**Balance transfer**\nDirection: " ++ transfer.direction.debug ++
    "\nType: " ++ transfer.transferType.debug ++
    "\nAccount: " ++ transfer.name ++ "[" ++ transfer.address ++ "]\nAmount:"

/-- `format_transfer`, with the text up to the amount in `transferHead`. -/
def formatTransfer (transfer : TransferKnownAccountEvent) : Except FormatPanic String := do
  let balance ← formatBalance env config transfer.amount
  return transferHead transfer ++ balance

/-- The reason in the text of a slashed operator. -/
def formatSlashedReason : SlashedReason → String
  | .invalidBundle n => s!"Invalid bundle at block: {n}"
  -- The `Debug` of a string has quotes.
  | .badExecutionReceipt h => s!"Bad execution receipt: 0x\"{env.hexEncode h}\""

/-- `format_event`. Only a transfer can panic. -/
def formatEvent : Event → Except FormatPanic String
  | .transfer transfer => formatTransfer env config transfer
  | .domainRuntimeUpgraded runtimeId =>
      .ok s!"**Domain runtime upgraded**\nRuntime ID: {runtimeId}"
  | .domainInstantiated domainId =>
      .ok s!"**Domain instantiated**\nDomain ID: {debugDomainId domainId}"
  | .fraudProofProcessed domainId (some blockNumber) =>
      .ok (s!"**Fraud proof processed**\nDomain ID: {debugDomainId domainId}"
        ++ s!"\nNew head receipt number: {blockNumber}")
  | .fraudProofProcessed domainId none =>
      .ok s!"**Fraud proof processed**\nDomain ID: {debugDomainId domainId}"
  | .operatorSlashed operatorId reason =>
      .ok (s!"**Operator slashed**\nOperator ID: {operatorId}"
        ++ s!"\nReason: {formatSlashedReason env reason}")
  | .operatorOffline operatorId domainId submitted expected minRequired =>
      .ok (s!"**Operator offline**\nOperator ID: {operatorId}\nDomain ID: {debugDomainId domainId}"
        ++ s!"\nSubmitted bundles: {submitted}\nExpected bundles: {expected}"
        ++ s!"\nMin required bundles: {minRequired}")
  | .sudo => .ok "**Sudo event triggered**"
  | .codeUpdated => .ok "**Runtime code updated**"

/-- `format_hash_and_number`: a link to the explorer under the short hash, and the number. -/
def formatHashAndNumber (block : HashAndNumber) : String :=
  let link := s!"https://polkadot.js.org/apps/?rpc={env.urlEncode config.rpcUrl}"
    ++ s!"#/explorer/query/0x{env.hexEncode block.hash}"
  s!"[{env.displayHash block.hash}]({link}) ({block.number})"

/-- `format_hash_and_number_list`, one line for each block. -/
def formatHashAndNumberList (blocks : List HashAndNumber) : String :=
  "\n".intercalate (blocks.map fun block => "- " ++ formatHashAndNumber env config block)

/-- `format_chain_stall`. -/
def formatChainStall (stall : ChainStall) : String :=
  s!"**Block production stalled**\nLast block: {formatHashAndNumber env config stall.lastBlock}"
    ++ s!"\nTime since last block: {env.formatDuration stall.duration}"

/-- `format_chain_recovery`. -/
def formatChainRecovery (recovery : ChainRecovery) : String :=
  s!"**Block production resumed**\nBest block: {formatHashAndNumber env config recovery.bestBlock}"
    ++ s!"\nResumed after: {env.formatDuration recovery.duration}"

/-- `format_reorg`. The depth is the number of retracted blocks. -/
def formatReorg (reorg : ChainReorg) : String :=
  s!"**Chain reorg**\nBest block: {formatHashAndNumber env config reorg.bestBlock}"
    ++ s!"\nCommon block: {formatHashAndNumber env config reorg.commonBlock}"
    ++ s!"\nRetracted blocks:\n{formatHashAndNumberList env config reorg.retracted}"
    ++ s!"\nEnacted blocks:\n{formatHashAndNumberList env config reorg.enacted}"
    ++ s!"\nReorg Depth: {reorg.retracted.length}"

/-- `format_timekeeper_stall`. The text speaks of a block, as the source's does. -/
def formatTimekeeperStall (stall : TimekeeperStall) : String :=
  s!"**Timekeeper stalled**\nLast slot: {stall.lastSlot}"
    ++ s!"\nTime since last block: {env.formatDuration stall.duration}"

/-- `format_timekeeper_recovery`. -/
def formatTimekeeperRecovery (recovery : TimekeeperRecovery) : String :=
  s!"**Timekeeper resumed**\nSlot: {recovery.slot}"
    ++ s!"\nResumed after: {env.formatDuration recovery.duration}"

/-- `format_slow_slot`. -/
def formatSlowSlot (slow : SlowSlot) : String :=
  s!"**Slow slot**\nSlot: {slow.slot}\nPrevious slot: {slow.previousSlot}"
    ++ s!"\nSlot time: {env.formatDuration slow.slotTime}"
    ++ s!"\nThreshold: {env.formatDuration slow.threshold}"

/-- `format_avg_slow_slot`. -/
def formatAvgSlowSlot (slow : AvgSlowSlot) : String :=
  s!"**Average Slow slots**\nSlot: {slow.slot}\nSlot count: {slow.slotCount}"
    ++ s!"\nAvg Slot time: {env.formatDuration slow.avgSlotTime}"
    ++ s!"\nThreshold: {env.formatDuration slow.threshold}"

/-- The text of an alert. Only a transfer can panic. -/
def formatAlert : Alert → Except FormatPanic String
  | .event event => formatEvent env config event
  | .chainStall stall => .ok (formatChainStall env config stall)
  | .chainRecovery recovery => .ok (formatChainRecovery env config recovery)
  | .reorg reorg => .ok (formatReorg env config reorg)
  | .timekeeperStall stall => .ok (formatTimekeeperStall env stall)
  | .timekeeperRecovery recovery => .ok (formatTimekeeperRecovery env recovery)
  | .slowSlot slow => .ok (formatSlowSlot env slow)
  | .avgSlowSlots slow => .ok (formatAvgSlowSlot env slow)

end MdFormat

end ChainAlerter
