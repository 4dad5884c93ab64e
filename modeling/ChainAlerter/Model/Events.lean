import ChainAlerter.Model.Alert

/-!
# `ChainAlerter.Model.Events`: the event monitor

`watch_events` of `alerter/src/events.rs`, with the event types of
`event_types.rs`. The monitor receives the broadcast messages. For each block of a
message it asks the node for the block's events, and makes ten passes over them,
one for each event type. The alerts of a block go out after the last pass, so the
monitor waits in two places: for a message, and for the events of a block.

The decoding of an event is that of `subxt`, and the parsing of an address that of
its `AccountId32`. Both are parameters of the model (`EventExternals`).
-/

set_option autoImplicit false

namespace ChainAlerter

/-- `AccountId32`. -/
abbrev AccountId := BitVec 256

/-- A configured account. The address is a text until the event monitor has parsed it. -/
structure Account where
  name : String
  address : String
  deriving DecidableEq, Repr

/-! ### The event types -/

/-- `Balances.Transfer`, which has both parties. -/
structure BalanceTransfer where
  «from» : AccountId
  «to» : AccountId
  amount : Nat

/-- `Balances.Deposit`, whose party is the receiver. -/
structure BalanceDeposit where
  who : AccountId
  amount : Nat

/-- `Balances.Withdraw`, whose party is the sender. -/
structure BalanceWithdraw where
  who : AccountId
  amount : Nat

/-- `Domains.DomainRuntimeUpgraded`. -/
structure DomainRuntimeUpgraded where
  runtimeId : Nat

/-- `Domains.DomainInstantiated`. -/
structure DomainInstantiated where
  domainId : Nat

/-- `Domains.FraudProofProcessed`, with the number of the new head receipt if there is one. -/
structure FraudProofProcessed where
  domainId : Nat
  newHeadReceiptNumber : Option Nat

/-- `Domains.OperatorSlashed`. -/
structure OperatorSlashed where
  operatorId : Nat
  reason : SlashedReason

/-- The bundles that an operator is expected to submit in an epoch, and the least number
that it must. -/
structure OperatorEpochExpectations where
  expectedBundles : Nat
  minRequiredBundles : Nat

/-- `Domains.OperatorOffline`. -/
structure OperatorOffline where
  operatorId : Nat
  domainId : Nat
  submittedBundles : Nat
  expectations : OperatorEpochExpectations

/-- The result of the call is decoded, and never read. -/
structure Sudo where

/-- `System.CodeUpdated`, which has no fields. -/
structure CodeUpdated where

/-- The pallet and the variant under which an event type is found. -/
class StaticEvent (E : Type) where
  PALLET : String
  EVENT : String

instance : StaticEvent BalanceTransfer := ⟨"Balances", "Transfer"⟩
instance : StaticEvent BalanceDeposit := ⟨"Balances", "Deposit"⟩
instance : StaticEvent BalanceWithdraw := ⟨"Balances", "Withdraw"⟩
instance : StaticEvent DomainRuntimeUpgraded := ⟨"Domains", "DomainRuntimeUpgraded"⟩
instance : StaticEvent DomainInstantiated := ⟨"Domains", "DomainInstantiated"⟩
instance : StaticEvent FraudProofProcessed := ⟨"Domains", "FraudProofProcessed"⟩
instance : StaticEvent OperatorSlashed := ⟨"Domains", "OperatorSlashed"⟩
instance : StaticEvent OperatorOffline := ⟨"Domains", "OperatorOffline"⟩
instance : StaticEvent Sudo := ⟨"Sudo", "Sudid"⟩
instance : StaticEvent CodeUpdated := ⟨"System", "CodeUpdated"⟩

/-- `Into<Event>`. -/
class IntoEvent (E : Type) where
  into : E → Event

instance : IntoEvent DomainRuntimeUpgraded := ⟨fun e => .domainRuntimeUpgraded e.runtimeId⟩
instance : IntoEvent DomainInstantiated := ⟨fun e => .domainInstantiated e.domainId⟩
instance : IntoEvent FraudProofProcessed :=
  ⟨fun e => .fraudProofProcessed e.domainId e.newHeadReceiptNumber⟩
instance : IntoEvent OperatorSlashed := ⟨fun e => .operatorSlashed e.operatorId e.reason⟩
instance : IntoEvent OperatorOffline :=
  ⟨fun e => .operatorOffline e.operatorId e.domainId e.submittedBundles
    e.expectations.expectedBundles e.expectations.minRequiredBundles⟩
instance : IntoEvent Sudo := ⟨fun _ => .sudo⟩
instance : IntoEvent CodeUpdated := ⟨fun _ => .codeUpdated⟩
instance : IntoEvent TransferKnownAccountEvent := ⟨.transfer⟩

/-- The trait `TransferEvent`: a transfer with its parties. -/
class TransferEvent (T : Type) where
  transferType : T → TransferType
  amount : T → Nat
  «from» : T → Option AccountId
  «to» : T → Option AccountId

instance : TransferEvent BalanceTransfer where
  transferType _ := .transfer
  amount e := e.amount
  «from» e := some e.«from»
  «to» e := some e.«to»

instance : TransferEvent BalanceDeposit where
  transferType _ := .deposit
  amount e := e.amount
  «from» _ := none
  «to» e := some e.who

instance : TransferEvent BalanceWithdraw where
  transferType _ := .withdraw
  amount e := e.amount
  «from» e := some e.who
  «to» _ := none

/-! ### The passes over the events of a block -/

/-- An event of a block, before it is decoded: its pallet, its variant, and its
encoded fields. -/
structure EventDetails where
  palletName : String
  variantName : String
  fieldBytes : List UInt8
  deriving DecidableEq, Repr

/-- The functions of other crates that the event monitor calls: `AccountId::from_str`,
which is `none` on an invalid address, and the decoding of each event type from the
fields of an event. -/
structure EventExternals where
  accountIdFromStr : String → Option AccountId
  balanceTransfer : EventDetails → Except SubxtError BalanceTransfer
  balanceDeposit : EventDetails → Except SubxtError BalanceDeposit
  balanceWithdraw : EventDetails → Except SubxtError BalanceWithdraw
  domainRuntimeUpgraded : EventDetails → Except SubxtError DomainRuntimeUpgraded
  domainInstantiated : EventDetails → Except SubxtError DomainInstantiated
  fraudProofProcessed : EventDetails → Except SubxtError FraudProofProcessed
  operatorSlashed : EventDetails → Except SubxtError OperatorSlashed
  operatorOffline : EventDetails → Except SubxtError OperatorOffline
  «sudo» : EventDetails → Except SubxtError Sudo
  codeUpdated : EventDetails → Except SubxtError CodeUpdated

/-- The event has the pallet and the variant of `E`. -/
def EventDetails.Is (E : Type) [StaticEvent E] (event : EventDetails) : Prop :=
  event.palletName = StaticEvent.PALLET E ∧ event.variantName = StaticEvent.EVENT E

instance (E : Type) [StaticEvent E] (event : EventDetails) : Decidable (event.Is E) :=
  inferInstanceAs (Decidable (_ ∧ _))

section
variable {E : Type} [StaticEvent E]

/-- `find` of `subxt`: the events of a type in their order, each decoded. -/
def find (decode : EventDetails → Except SubxtError E) (blockEvents : List EventDetails) :
    List (Except SubxtError E) :=
  (blockEvents.filter (fun event => event.Is E)).map decode

/-- `find::<E>().try_collect::<Vec<_>>()?`. -/
def findAll (decode : EventDetails → Except SubxtError E) (blockEvents : List EventDetails) :
    Except Error (List E) :=
  ((find decode blockEvents).mapM id).mapError Error.fromSubxt

/-- `as_events`. -/
def asEvents [IntoEvent E] (decode : EventDetails → Except SubxtError E)
    (blockEvents : List EventDetails) : Except Error (List Event) := do
  let events ← findAll decode blockEvents
  return events.map IntoEvent.into

end

/-- `account_mapped_name`. A later account replaces one with the same id. `none` is the
panic of `expect("Must be a valid SS58 address")`. -/
def accountMappedName (env : EventExternals) (accounts : List Account) :
    Option (Finmap (fun _ : AccountId => Account)) :=
  accounts.foldlM
    (fun map account => (env.accountIdFromStr account.address).map (fun id => map.insert id account))
    ∅

/-- `filter_known_account_transfers`: the transfers with a known party. The
sender comes first. -/
def filterKnownAccountTransfers {T : Type} [TransferEvent T] (events : List T)
    (accounts : Finmap (fun _ : AccountId => Account)) : List TransferKnownAccountEvent :=
  events.filterMap fun event =>
    let known (direction : TransferDirection) (account : Account) : TransferKnownAccountEvent :=
      { direction := direction, transferType := TransferEvent.transferType event
        name := account.name, address := account.address, amount := TransferEvent.amount event }
    -- With both parties known, only the sender is reported.
    match (TransferEvent.«from» event).bind accounts.lookup with
    | some account => some (known .sender account)
    | none => ((TransferEvent.«to» event).bind accounts.lookup).map (known .receiver)

/-- The body of the loop over the blocks: the events of a block that are alerted. -/
def blockAlertEvents (env : EventExternals) (accounts : Finmap (fun _ : AccountId => Account))
    (blockEvents : List EventDetails) : Except Error (List Event) := do
  let transfers ← findAll env.balanceTransfer blockEvents
  let deposits ← findAll env.balanceDeposit blockEvents
  let withdraws ← findAll env.balanceWithdraw blockEvents
  let transfers := filterKnownAccountTransfers transfers accounts
    ++ filterKnownAccountTransfers deposits accounts
    ++ filterKnownAccountTransfers withdraws accounts
  -- From here on `events.extend(as_events(..))`, one type after the other.
  let runtimeUpgrades ← asEvents env.domainRuntimeUpgraded blockEvents
  let instantiations ← asEvents env.domainInstantiated blockEvents
  let fraudProofs ← asEvents env.fraudProofProcessed blockEvents
  let slashes ← asEvents env.operatorSlashed blockEvents
  let offlines ← asEvents env.operatorOffline blockEvents
  let sudos ← asEvents env.«sudo» blockEvents
  let codeUpdates ← asEvents env.codeUpdated blockEvents
  return transfers.map IntoEvent.into ++ runtimeUpgrades ++ instantiations ++ fraudProofs ++ slashes
    ++ offlines ++ sudos ++ codeUpdates

/-! ### The monitor -/

/-- What the monitor waits for: a result of `stream.recv()`, or of `block.events()`. -/
inductive EventsReply where
  | recv (result : Except RecvError BlocksExt)
  | events (result : Except SubxtError (List EventDetails))

/-- Where the monitor waits: for a message, or for the events of `block`, with `rest`
the blocks of the message after it. -/
inductive EventsPhase where
  | waiting
  | fetching (block : BlockExt) (rest : List BlockExt)
  | returned (err : Error)
  | panicked

/-- The state of the monitor: its accounts, the alerts it has sent, oldest first,
and where it waits. -/
structure EventWatcher where
  accounts : Finmap (fun _ : AccountId => Account)
  alerts : List Alert
  phase : EventsPhase

namespace EventWatcher

/-- The start of `watch_events`. -/
def init (env : EventExternals) (accounts : List Account) : EventWatcher :=
  match accountMappedName env accounts with
  | some accounts => { accounts := accounts, alerts := [], phase := .waiting }
  | none => { accounts := ∅, alerts := [], phase := .panicked }

/-- The loop over the blocks of a message, up to its next wait. -/
def watchBlocks (w : EventWatcher) : List BlockExt → EventWatcher
  | [] => { w with phase := .waiting }
  | block :: rest => { w with phase := .fetching block rest }

/-- The events of a block. A failure ends the monitor before any alert of the block. -/
def recvEvents (env : EventExternals) (w : EventWatcher) (rest : List BlockExt)
    (blockEvents : List EventDetails) : EventWatcher :=
  match blockAlertEvents env w.accounts blockEvents with
  | .ok events =>
      watchBlocks { w with alerts := w.alerts ++ events.map Alert.event } rest
  | .error err => { w with phase := .returned err }

/-- The monitor from one wait to the next. -/
def step (env : EventExternals) (w : EventWatcher) (reply : EventsReply) : Option EventWatcher :=
  match w.phase, reply with
  | .waiting, .recv (.ok blocksExt) => some (w.watchBlocks blocksExt.blocks)
  | .waiting, .recv (.error err) => some { w with phase := .returned (.broadRecvErr err) }
  | .fetching _ rest, .events (.ok blockEvents) => some (w.recvEvents env rest blockEvents)
  | .fetching _ _, .events (.error err) => some { w with phase := .returned (.fromSubxt err) }
  | _, _ => none

end EventWatcher

end ChainAlerter
