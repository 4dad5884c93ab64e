import ChainAlerter.Library.EventRun
import ChainAlerter.Library.Passes
import ChainAlerter.Model.Events

/-!
# `ChainAlerter.Proofs.Events`: each monitored event yields its alert

What the event monitor is for, said for one event at a time: `eventReader` gives each
event of a block its kind, and the alert that it yields, field by field. A transfer
yields one if the sender or else the receiver is configured, with the last configured
account of that id (`lastConfigured`). A deposit has no sender, and a withdraw no
receiver.

The monitor itself makes ten passes over the events. `blockAlertEvents_eq` shows
that these are the passes of the reader, so they read each event once and fail
together. `event_alerts_by_block` is the result over all runs: the alerts are those
of the blocks in their order, up to the first block that cannot be read, and the
monitor goes on until such a block or an error of the channel ends it.
-/

set_option autoImplicit false

namespace ChainAlerter

open ChainAlerter.Library

variable {env : EventExternals}

/-! ### What an event yields -/

/-- The monitored kinds, in the order of the passes. -/
inductive EventKind where
  | balanceTransfer
  | balanceDeposit
  | balanceWithdraw
  | domainRuntimeUpgraded
  | domainInstantiated
  | fraudProofProcessed
  | operatorSlashed
  | operatorOffline
  | sudid
  | codeUpdated
  deriving DecidableEq, Repr

namespace EventKind

/-- The kinds in the order of the passes of the source. -/
def all : List EventKind :=
  [balanceTransfer, balanceDeposit, balanceWithdraw, domainRuntimeUpgraded, domainInstantiated,
   fraudProofProcessed, operatorSlashed, operatorOffline, sudid, codeUpdated]

/-- The pallet and the variant of a kind. -/
def names : EventKind → String × String
  | balanceTransfer => ("Balances", "Transfer")
  | balanceDeposit => ("Balances", "Deposit")
  | balanceWithdraw => ("Balances", "Withdraw")
  | domainRuntimeUpgraded => ("Domains", "DomainRuntimeUpgraded")
  | domainInstantiated => ("Domains", "DomainInstantiated")
  | fraudProofProcessed => ("Domains", "FraudProofProcessed")
  | operatorSlashed => ("Domains", "OperatorSlashed")
  | operatorOffline => ("Domains", "OperatorOffline")
  | sudid => ("Sudo", "Sudid")
  | codeUpdated => ("System", "CodeUpdated")

/-- Every kind has its pass. -/
theorem mem_all (kind : EventKind) : kind ∈ all := by
  cases kind <;> decide

/-- No kind has two passes. -/
theorem nodup_all : all.Nodup := by decide

/-- A kind is determined by its pallet and variant, so an event has at most one kind. -/
theorem names_injective : Function.Injective names := by
  intro a b h
  cases a <;> cases b <;> first | rfl | exact absurd h (by decide)

end EventKind

/-- The kind of an event, `none` if it is not monitored. -/
def EventDetails.kind? (event : EventDetails) : Option EventKind :=
  EventKind.all.find? fun kind => kind.names = (event.palletName, event.variantName)

/-- The kind of an event is the one with its pallet and variant. No two kinds have the
same names, so the first one found is the only one. -/
theorem EventDetails.kind?_eq_some_iff {event : EventDetails} {kind : EventKind} :
    event.kind? = some kind ↔ kind.names = (event.palletName, event.variantName) := by
  constructor
  · intro h
    simpa using List.find?_some h
  · intro h
    cases hkind : event.kind? with
    | none =>
        rw [kind?, List.find?_eq_none] at hkind
        exact absurd h (by simpa using hkind kind kind.mem_all)
    | some other =>
        have hother : other.names = (event.palletName, event.variantName) := by
          simpa using List.find?_some hkind
        rw [EventKind.names_injective (hother.trans h.symm)]

/-- The last configured account with the id. -/
def lastConfigured (env : EventExternals) (accounts : List Account) (id : AccountId) :
    Option Account :=
  accounts.reverse.find? fun account => env.accountIdFromStr account.address = some id

/-- What a transfer with these parties yields: nothing if none of them is
configured, and otherwise one alert, with the sender if it is configured and else
with the receiver. -/
def transferAlert (env : EventExternals) (accounts : List Account) (transferType : TransferType)
    (sender receiver : Option AccountId) (amount : Nat) : Option Event :=
  let alert (direction : TransferDirection) (account : Account) : Event :=
    .transfer
      { direction := direction, transferType := transferType
        name := account.name, address := account.address, amount := amount }
  match sender.bind (lastConfigured env accounts) with
  | some account => some (alert .sender account)
  | none => (receiver.bind (lastConfigured env accounts)).map (alert .receiver)

/-- What an event of a kind yields, or the error of its decoding. A deposit has only a
receiver, and a withdraw only a sender. -/
def kindAlert (env : EventExternals) (accounts : List Account) (kind : EventKind)
    (event : EventDetails) : Except SubxtError (Option Event) :=
  match kind with
  | .balanceTransfer => (env.balanceTransfer event).map fun e =>
      transferAlert env accounts .transfer (some e.«from») (some e.«to») e.amount
  | .balanceDeposit => (env.balanceDeposit event).map fun e =>
      transferAlert env accounts .deposit none (some e.who) e.amount
  | .balanceWithdraw => (env.balanceWithdraw event).map fun e =>
      transferAlert env accounts .withdraw (some e.who) none e.amount
  | .domainRuntimeUpgraded => (env.domainRuntimeUpgraded event).map fun e =>
      some (.domainRuntimeUpgraded e.runtimeId)
  | .domainInstantiated => (env.domainInstantiated event).map fun e =>
      some (.domainInstantiated e.domainId)
  | .fraudProofProcessed => (env.fraudProofProcessed event).map fun e =>
      some (.fraudProofProcessed e.domainId e.newHeadReceiptNumber)
  | .operatorSlashed => (env.operatorSlashed event).map fun e =>
      some (.operatorSlashed e.operatorId e.reason)
  | .operatorOffline => (env.operatorOffline event).map fun e =>
      some (.operatorOffline e.operatorId e.domainId e.submittedBundles
        e.expectations.expectedBundles e.expectations.minRequiredBundles)
  | .sudid => (env.«sudo» event).map fun _ => some .sudo
  | .codeUpdated => (env.codeUpdated event).map fun _ => some .codeUpdated

/-- How the events of a block are to be read. -/
def eventReader (env : EventExternals) (accounts : List Account) :
    Reader EventDetails Event EventKind SubxtError :=
  { kind? := EventDetails.kind?, read := kindAlert env accounts }

/-! ### The accounts -/

/-- A new account at the end is the last one of its id, and changes nothing for the others. -/
theorem lastConfigured_append_singleton (accounts : List Account) (account : Account)
    (id : AccountId) :
    lastConfigured env (accounts ++ [account]) id =
      if env.accountIdFromStr account.address = some id then some account
      else lastConfigured env accounts id := by
  rw [lastConfigured, List.reverse_append, List.reverse_singleton, List.singleton_append,
    List.find?_cons]
  split <;> simp_all [lastConfigured]

/-- The map holds the last configured account of each id. With valid addresses
it exists. Later accounts replace earlier ones of the same id, as an insertion
into a map does. -/
theorem accountMappedName_spec (accounts : List Account)
    (hvalid : ∀ account ∈ accounts, env.accountIdFromStr account.address ≠ none) :
    ∃ map, accountMappedName env accounts = some map ∧
      ∀ id, map.lookup id = lastConfigured env accounts id := by
  induction accounts using List.reverseRecOn with
  | nil => exact ⟨∅, rfl, fun id => by simp [lastConfigured]⟩
  | append_singleton accounts account ih =>
      obtain ⟨map, hmap, hlookup⟩ := ih fun a ha => hvalid a (List.mem_append_left _ ha)
      obtain ⟨id, hid⟩ := Option.ne_none_iff_exists'.mp (hvalid account (by simp))
      refine ⟨map.insert id account, ?_, fun other => ?_⟩
      · rw [accountMappedName] at hmap ⊢
        rw [List.foldlM_append, hmap]
        simp [hid]
      · rw [lastConfigured_append_singleton, hid]
        -- The new account replaces an earlier one of its id, and is the last one configured.
        by_cases hother : other = id
        · rw [hother, Finmap.lookup_insert, if_pos rfl]
        · rw [Finmap.lookup_insert_of_ne _ hother, hlookup, if_neg]
          simpa using fun h => hother h.symm

/-! ### The passes of the monitor -/

section
variable {accounts : List Account} {map : Finmap (fun _ : AccountId => Account)}

/-- What a transfer yields, with its parties and its amount as the trait gives them. -/
def partiesAlert (env : EventExternals) (accounts : List Account) {T : Type} [TransferEvent T]
    (transfer : T) : Option Event :=
  transferAlert env accounts (TransferEvent.transferType transfer) (TransferEvent.«from» transfer)
    (TransferEvent.«to» transfer) (TransferEvent.amount transfer)

/-- The filter over the known accounts keeps the transfers that yield an
alert, and turns each into it. The map it looks into holds the last configured
account of each id. -/
theorem filterKnownAccountTransfers_eq (hmap : ∀ id, map.lookup id = lastConfigured env accounts id)
    {T : Type} [TransferEvent T] (transfers : List T) :
    (filterKnownAccountTransfers transfers map).map IntoEvent.into =
      transfers.filterMap (partiesAlert env accounts) := by
  have hlookup : map.lookup = lastConfigured env accounts := funext hmap
  rw [filterKnownAccountTransfers, List.map_filterMap]
  refine List.filterMap_congr fun transfer _ => ?_
  simp only [partiesAlert, transferAlert, hlookup]
  cases (TransferEvent.«from» transfer).bind (lastConfigured env accounts) with
  | some account => rfl
  | none =>
      simp only [Option.map_map]
      rfl

/-- The events with the pallet and the variant of a type are those of its kind. -/
theorem is_iff_kind? {E : Type} [StaticEvent E] {kind : EventKind}
    (hnames : kind.names = (StaticEvent.PALLET E, StaticEvent.EVENT E)) (event : EventDetails) :
    event.Is E ↔ event.kind? = some kind := by
  rw [EventDetails.kind?_eq_some_iff, hnames, EventDetails.Is, Prod.mk.injEq, eq_comm,
    eq_comm (b := event.variantName)]

/-- A pass of the reader over a kind finds and decodes the events of its type. It is the
`find` of the source for one static event, with the errors translated at the end. -/
theorem pass_eq {E : Type} [StaticEvent E] {decode : EventDetails → Except SubxtError E}
    {kind : EventKind} {g : E → Option Event}
    (hnames : kind.names = (StaticEvent.PALLET E, StaticEvent.EVENT E))
    (hread : ∀ event, kindAlert env accounts kind event = (decode event).map g)
    (blockEvents : List EventDetails) :
    ((eventReader env accounts).pass blockEvents kind).mapError Error.fromSubxt =
      (findAll decode blockEvents).map (List.filterMap g) := by
  -- `find` selects by the names, and the reader by the kind.
  have hkind : (eventReader env accounts).ofKind kind blockEvents =
      blockEvents.filter fun event => event.Is E := by
    refine List.filter_congr fun event _ => ?_
    rw [decide_eq_decide]
    exact (is_iff_kind? hnames event).symm
  have hread' : (eventReader env accounts).read kind = fun event => (decode event).map g :=
    funext hread
  rw [Reader.pass, hkind, hread', mapM_map_result, findAll, find, List.mapM_map]
  change _ = Except.map _ (Except.mapError _ (List.mapM decode _))
  cases (blockEvents.filter fun event => event.Is E).mapM decode with
  | error err => rfl
  | ok events => simp [Except.map, Except.mapError, List.reduceOption, List.filterMap_map]

/-- `as_events` keeps every event that it finds. -/
theorem asEvents_eq {E : Type} [StaticEvent E] [IntoEvent E]
    (decode : EventDetails → Except SubxtError E) (blockEvents : List EventDetails) :
    asEvents decode blockEvents =
      (findAll decode blockEvents).map (List.filterMap (some ∘ IntoEvent.into)) := by
  rw [asEvents, List.filterMap_eq_map]
  cases findAll decode blockEvents <;> rfl

/-- The ten passes of the monitor are those of the reader, kind by kind and in the order
of the source. Here the types of the source's passes meet the explicit list of what a
kind is alerted as. -/
theorem blockAlertEvents_eq (hmap : ∀ id, map.lookup id = lastConfigured env accounts id)
    (blockEvents : List EventDetails) :
    blockAlertEvents env map blockEvents =
      ((eventReader env accounts).passes EventKind.all blockEvents).mapError Error.fromSubxt := by
  have hpass : ∀ kind, ((eventReader env accounts).pass blockEvents kind).mapError Error.fromSubxt =
      match kind with
      | .balanceTransfer => (findAll env.balanceTransfer blockEvents).map
          (List.filterMap (partiesAlert env accounts))
      | .balanceDeposit => (findAll env.balanceDeposit blockEvents).map
          (List.filterMap (partiesAlert env accounts))
      | .balanceWithdraw => (findAll env.balanceWithdraw blockEvents).map
          (List.filterMap (partiesAlert env accounts))
      | .domainRuntimeUpgraded => asEvents env.domainRuntimeUpgraded blockEvents
      | .domainInstantiated => asEvents env.domainInstantiated blockEvents
      | .fraudProofProcessed => asEvents env.fraudProofProcessed blockEvents
      | .operatorSlashed => asEvents env.operatorSlashed blockEvents
      | .operatorOffline => asEvents env.operatorOffline blockEvents
      | .sudid => asEvents env.«sudo» blockEvents
      | .codeUpdated => asEvents env.codeUpdated blockEvents := by
    intro kind
    cases kind <;> simp only [asEvents_eq] <;> exact pass_eq rfl (fun _ => rfl) blockEvents
  have hpasses : ((eventReader env accounts).passes EventKind.all blockEvents).mapError
      Error.fromSubxt = (EventKind.all.mapM fun kind =>
        ((eventReader env accounts).pass blockEvents kind).mapError Error.fromSubxt).map
          List.flatten := by
    rw [← mapError_mapM, Reader.passes]
    cases EventKind.all.mapM ((eventReader env accounts).pass blockEvents) <;> rfl
  rw [hpasses]
  -- Both sides now are ten results in the same order. The first error ends either of them.
  simp only [EventKind.all, List.mapM_cons, hpass, blockAlertEvents, List.map_append,
    filterKnownAccountTransfers_eq hmap]
  cases findAll env.balanceTransfer blockEvents with
  | error err => rfl
  | ok transfers =>
  cases findAll env.balanceDeposit blockEvents with
  | error err => rfl
  | ok deposits =>
  cases findAll env.balanceWithdraw blockEvents with
  | error err => rfl
  | ok withdraws =>
  cases asEvents env.domainRuntimeUpgraded blockEvents with
  | error err => rfl
  | ok runtimeUpgrades =>
  cases asEvents env.domainInstantiated blockEvents with
  | error err => rfl
  | ok instantiations =>
  cases asEvents env.fraudProofProcessed blockEvents with
  | error err => rfl
  | ok fraudProofs =>
  cases asEvents env.operatorSlashed blockEvents with
  | error err => rfl
  | ok slashes =>
  cases asEvents env.operatorOffline blockEvents with
  | error err => rfl
  | ok offlines =>
  cases asEvents env.«sudo» blockEvents with
  | error err => rfl
  | ok sudos =>
  cases asEvents env.codeUpdated blockEvents with
  | error err => rfl
  | ok codeUpdates => simp [Except.map, bind, Except.bind, pure, Except.pure]

/-- The passes succeed when every monitored event decodes, with what the events yield. -/
theorem blockAlertEvents_of_readable (hmap : ∀ id, map.lookup id = lastConfigured env accounts id)
    {blockEvents : List EventDetails}
    (h : blockEvents.all (eventReader env accounts).readable = true) :
    blockAlertEvents env map blockEvents =
      .ok ((eventReader env accounts).passResults EventKind.all blockEvents) := by
  rw [blockAlertEvents_eq hmap, Reader.passes_of_readable (List.all_eq_true.mp h)]
  rfl

/-- They fail when a monitored event does not decode. -/
theorem blockAlertEvents_of_not_readable
    (hmap : ∀ id, map.lookup id = lastConfigured env accounts id)
    {blockEvents : List EventDetails}
    (h : blockEvents.all (eventReader env accounts).readable = false) :
    ∃ err, blockAlertEvents env map blockEvents = .error err := by
  obtain ⟨event, hevent, hnot⟩ := List.all_eq_false.mp h
  obtain ⟨err, herr⟩ := Reader.passes_of_not_readable (R := eventReader env accounts)
    (fun _ _ kind _ => kind.mem_all) hevent (Bool.eq_false_iff.mpr hnot)
  exact ⟨.fromSubxt err, by rw [blockAlertEvents_eq hmap, herr]; rfl⟩

end

/-! ### Runs of the monitor -/

/-- The blocks of the received messages, in their order. -/
def receivedBlocks (trace : List EventsReply) : List BlockExt :=
  trace.flatMap fun reply =>
    match reply with
    | .recv (.ok blocksExt) => blocksExt.blocks
    | _ => []

/-- The answers to the requests for events, in their order. -/
def eventAnswers (trace : List EventsReply) : List (Except SubxtError (List EventDetails)) :=
  trace.filterMap fun reply =>
    match reply with
    | .events answer => some answer
    | _ => none

/-- The received blocks whose events the monitor has asked for, with the answers. -/
def fetchedBlocks (trace : List EventsReply) :
    List (BlockExt × Except SubxtError (List EventDetails)) :=
  (receivedBlocks trace).zip (eventAnswers trace)

/-- The events of a block were fetched, and every monitored one decodes. -/
def blockReadable (env : EventExternals) (accounts : List Account) :
    Except SubxtError (List EventDetails) → Bool
  | .ok blockEvents => blockEvents.all (eventReader env accounts).readable
  | .error _ => false

/-- Nothing has failed so far: the events of each block that was asked for were fetched,
every monitored one among them decodes, and the channel gave no error. -/
def NothingFailed (env : EventExternals) (accounts : List Account) (trace : List EventsReply) :
    Prop :=
  (∀ answer ∈ eventAnswers trace, blockReadable env accounts answer = true) ∧
    ∀ err, .recv (.error err) ∉ trace

/-- The node's answer for a block: its events, or an error. -/
def Answers (eventsAt : BlockHash → List EventDetails) (block : BlockExt)
    (answer : Except SubxtError (List EventDetails)) : Prop :=
  answer = .ok (eventsAt block.hash) ∨ ∃ err, answer = .error err

/-- Each answer is the node's, for the block that it was asked for. -/
def Answered (eventsAt : BlockHash → List EventDetails) (trace : List EventsReply) : Prop :=
  ∀ f ∈ fetchedBlocks trace, Answers eventsAt f.1 f.2

/-- An answer that the monitor gets is the node's answer for the block that it waits for. -/
def EventWatcher.HearsNode (eventsAt : BlockHash → List EventDetails) (w : EventWatcher)
    (reply : EventsReply) : Prop :=
  ∀ block rest answer, w.phase = .fetching block rest → reply = .events answer →
    Answers eventsAt block answer

/-- The alerts of a block, kind by kind. -/
def blockAlerts (env : EventExternals) (accounts : List Account) :
    Except SubxtError (List EventDetails) → List Alert
  | .ok blockEvents =>
      ((eventReader env accounts).passResults EventKind.all blockEvents).map Alert.event
  | .error _ => []

/-- The alert that an event yields. -/
def eventAlert (env : EventExternals) (accounts : List Account) (event : EventDetails) :
    Option Alert :=
  ((eventReader env accounts).result? event).map Alert.event

/-- The alerts of a block are those of its events, each once. The passes go kind by
kind, so only the order differs from that of the events. -/
theorem blockAlerts_perm (env : EventExternals) (accounts : List Account)
    (blockEvents : List EventDetails) :
    (blockAlerts env accounts (.ok blockEvents)).Perm
      (blockEvents.filterMap (eventAlert env accounts)) := by
  have hresults : ((eventReader env accounts).passResults EventKind.all blockEvents).Perm
      (blockEvents.filterMap (eventReader env accounts).result?) :=
    Reader.perm_passResults EventKind.nodup_all fun _ _ kind _ => kind.mem_all
  have hperm := hresults.map Alert.event
  rw [List.map_filterMap] at hperm
  exact hperm

section
variable (trace : List EventsReply)

/-- The blocks are asked for in the order in which they were received. -/
theorem fetchedBlocks_initial : (fetchedBlocks trace).map Prod.fst <+: receivedBlocks trace := by
  rw [fetchedBlocks, List.zip_eq_zip_take_min, List.map_fst_zip (by simp)]
  exact List.take_prefix _ _

/-- A message adds its blocks at the end. -/
@[simp] theorem receivedBlocks_recv (blocksExt : BlocksExt) :
    receivedBlocks (trace ++ [.recv (.ok blocksExt)]) =
      receivedBlocks trace ++ blocksExt.blocks := by
  simp [receivedBlocks]

/-- An error of the channel brings no blocks. -/
@[simp] theorem receivedBlocks_recv_error (err : RecvError) :
    receivedBlocks (trace ++ [.recv (.error err)]) = receivedBlocks trace := by
  simp [receivedBlocks]

/-- An answer about events brings no blocks. -/
@[simp] theorem receivedBlocks_events (answer : Except SubxtError (List EventDetails)) :
    receivedBlocks (trace ++ [.events answer]) = receivedBlocks trace := by
  simp [receivedBlocks]

/-- A message answers no request. -/
@[simp] theorem eventAnswers_recv (result : Except RecvError BlocksExt) :
    eventAnswers (trace ++ [.recv result]) = eventAnswers trace := by
  simp [eventAnswers]

/-- The answers are kept in their order. -/
@[simp] theorem eventAnswers_events (answer : Except SubxtError (List EventDetails)) :
    eventAnswers (trace ++ [.events answer]) = eventAnswers trace ++ [answer] := by
  simp [eventAnswers]

variable (accounts : List Account)

/-- A message fails nothing. -/
@[simp] theorem nothingFailed_recv (blocksExt : BlocksExt) :
    NothingFailed env accounts (trace ++ [.recv (.ok blocksExt)]) ↔
      NothingFailed env accounts trace := by
  simp [NothingFailed]

/-- An error of the channel is a failure. -/
@[simp] theorem not_nothingFailed_recv_error (err : RecvError) :
    ¬ NothingFailed env accounts (trace ++ [.recv (.error err)]) := fun h => h.2 err (by simp)

/-- An answer fails the monitor exactly when the block cannot be read. -/
@[simp] theorem nothingFailed_events (answer : Except SubxtError (List EventDetails)) :
    NothingFailed env accounts (trace ++ [.events answer]) ↔
      NothingFailed env accounts trace ∧ blockReadable env accounts answer = true := by
  simp only [NothingFailed, eventAnswers_events, List.mem_append, List.mem_singleton, or_imp,
    forall_and, forall_eq, reduceCtorEq, or_false]
  exact and_right_comm

end

namespace EventWatcher

variable {accounts : List Account} {trace : List EventsReply} {w w' : EventWatcher}

/-- What a phase says of the replies so far. A monitor that waits for a message has read
every block, one that waits for the events of `block` has read those before it, and one
that has returned did so because something failed. -/
def PhaseOf (env : EventExternals) (accounts : List Account) (trace : List EventsReply) :
    EventsPhase → Prop
  | .waiting => (eventAnswers trace).length = (receivedBlocks trace).length ∧
      NothingFailed env accounts trace
  | .fetching block rest =>
      (∃ done, receivedBlocks trace = done ++ block :: rest ∧
        (eventAnswers trace).length = done.length) ∧ NothingFailed env accounts trace
  | .returned _ => (eventAnswers trace).length ≤ (receivedBlocks trace).length ∧
      ¬ NothingFailed env accounts trace
  | .panicked => False

/-- What the state has to do with the replies so far. -/
structure Watched (env : EventExternals) (accounts : List Account) (trace : List EventsReply)
    (w : EventWatcher) : Prop where
  known : ∀ id, w.accounts.lookup id = lastConfigured env accounts id
  alerts : w.alerts = ((eventAnswers trace).takeWhile (blockReadable env accounts)).flatMap
    (blockAlerts env accounts)
  phase : PhaseOf env accounts trace w.phase

/-- At the start nothing is received, and with valid addresses the map of the accounts
is the one that the alerts are read with. -/
theorem watched_init (hvalid : ∀ account ∈ accounts, env.accountIdFromStr account.address ≠ none) :
    Watched env accounts [] (init env accounts) := by
  obtain ⟨map, hmap, hlookup⟩ := accountMappedName_spec accounts hvalid
  simp only [init, hmap]
  exact ⟨hlookup, rfl, rfl, fun a ha => (by cases ha), fun err h => (by cases h)⟩

/-- The loop over the blocks of a message starts after the blocks `done`. It goes on
with the first block that is left, or waits for the next message. -/
theorem phaseOf_watchBlocks (w : EventWatcher) (done rest : List BlockExt)
    (hblocks : receivedBlocks trace = done ++ rest)
    (hlength : (eventAnswers trace).length = done.length)
    (hread : NothingFailed env accounts trace) :
    PhaseOf env accounts trace (w.watchBlocks rest).phase := by
  cases rest with
  | nil =>
      rw [List.append_nil] at hblocks
      exact ⟨by rw [hlength, hblocks], hread⟩
  | cons block rest => exact ⟨⟨done, hblocks, hlength⟩, hread⟩

/-- Going on to a block leaves the accounts alone. -/
@[simp] theorem accounts_watchBlocks (w : EventWatcher) (blocks : List BlockExt) :
    (w.watchBlocks blocks).accounts = w.accounts := by
  cases blocks <;> rfl

/-- It sends no alert either. -/
@[simp] theorem alerts_watchBlocks (w : EventWatcher) (blocks : List BlockExt) :
    (w.watchBlocks blocks).alerts = w.alerts := by
  cases blocks <;> rfl

/-- A block that cannot be read ends the monitor without an alert. The alerts of the
blocks before it have been sent already, and nothing is sent after it. -/
theorem Watched.fail {block : BlockExt} {rest : List BlockExt} {err : Error}
    {answer : Except SubxtError (List EventDetails)} (h : Watched env accounts trace w)
    (hphase : w.phase = .fetching block rest)
    (hanswer : blockReadable env accounts answer = false) :
    Watched env accounts (trace ++ [.events answer]) { w with phase := .returned err } := by
  have hread := h.phase
  rw [hphase] at hread
  obtain ⟨⟨done, hblocks, hlength⟩, hread, -⟩ := hread
  refine ⟨h.known, ?_, ?_, ?_⟩
  · -- All answers before this one were readable, so the readable ones end here.
    show w.alerts = _
    rw [h.alerts, eventAnswers_events, List.takeWhile_append_of_pos hread]
    simp [hanswer, List.takeWhile_eq_self_iff.mpr hread]
  · rw [eventAnswers_events, receivedBlocks_events, hblocks]
    simp
    omega
  · simp [hanswer]

/-- The events of a block. If they all decode the monitor sends their alerts and goes on
after the block, and otherwise it has ended. -/
theorem Watched.recvEvents {block : BlockExt} {rest : List BlockExt}
    (h : Watched env accounts trace w) (hphase : w.phase = .fetching block rest)
    (blockEvents : List EventDetails) :
    Watched env accounts (trace ++ [.events (.ok blockEvents)])
      (w.recvEvents env rest blockEvents) := by
  have hread := h.phase
  rw [hphase] at hread
  obtain ⟨⟨done, hblocks, hlength⟩, hnothing⟩ := hread
  have hread := hnothing.1
  cases hall : blockEvents.all (eventReader env accounts).readable with
  | false =>
      obtain ⟨err, herr⟩ := blockAlertEvents_of_not_readable h.known hall
      rw [EventWatcher.recvEvents, herr]
      -- The pass that fails comes before any alert of the block.
      exact h.fail hphase hall
  | true =>
      rw [EventWatcher.recvEvents, blockAlertEvents_of_readable h.known hall]
      have hnothing' : NothingFailed env accounts (trace ++ [.events (.ok blockEvents)]) :=
        (nothingFailed_events _ _ _).mpr ⟨hnothing, hall⟩
      have hread' := hnothing'.1
      rw [eventAnswers_events] at hread'
      refine ⟨?_, ?_, ?_⟩
      · simpa using h.known
      · rw [alerts_watchBlocks, eventAnswers_events, List.takeWhile_eq_self_iff.mpr hread',
          h.alerts, List.takeWhile_eq_self_iff.mpr hread, List.flatMap_append, List.flatMap_singleton]
        rfl
      · -- The loop goes on after `block`, which now counts as done.
        refine phaseOf_watchBlocks _ (done ++ [block]) rest ?_ ?_ hnothing'
        · rw [receivedBlocks_events, hblocks, List.append_assoc, List.singleton_append]
        · rw [eventAnswers_events]
          simp [hlength]

/-- One step of the monitor keeps what its state has to do with the replies. The four
replies that it takes are a message, an error of the channel, the events of a block and
a failed request. -/
theorem Watched.step {reply : EventsReply} (h : Watched env accounts trace w)
    (hstep : w.step env reply = some w') : Watched env accounts (trace ++ [reply]) w' := by
  unfold EventWatcher.step at hstep
  split at hstep
  · rename_i blocksExt hphase
    cases hstep
    have hread := h.phase
    rw [hphase] at hread
    refine ⟨by simpa using h.known, ?_, ?_⟩
    · rw [alerts_watchBlocks, eventAnswers_recv]
      exact h.alerts
    · refine phaseOf_watchBlocks w _ _ (receivedBlocks_recv _ _) ?_ ?_
      · rw [eventAnswers_recv]
        exact hread.1
      · exact (nothingFailed_recv _ _ _).mpr hread.2
  · rename_i err hphase
    cases hstep
    have hread := h.phase
    rw [hphase] at hread
    refine ⟨h.known, ?_, ?_, not_nothingFailed_recv_error _ _ _⟩
    · rw [eventAnswers_recv]
      exact h.alerts
    · rw [eventAnswers_recv, receivedBlocks_recv_error]
      exact hread.1.le
  · rename_i block rest blockEvents hphase
    cases hstep
    exact h.recvEvents hphase blockEvents
  · rename_i block rest err hphase
    cases hstep
    exact h.fail hphase rfl
  · cases hstep

/-- In every run, the state of the monitor is what the replies so far make it. -/
theorem run_watched (hvalid : ∀ account ∈ accounts, env.accountIdFromStr account.address ≠ none) :
    ∀ (trace : List EventsReply) (w : EventWatcher),
      run (step env) (init env accounts) trace = some w → Watched env accounts trace w :=
  run_history (watched_init hvalid) fun _ _ _ _ _ h hstep => h.step hstep

/-- No more answers than blocks: each answer is for the next received block, since the
monitor asks for them one after the other. -/
theorem Watched.length_le (h : Watched env accounts trace w) :
    (eventAnswers trace).length ≤ (receivedBlocks trace).length := by
  have hphase := h.phase
  cases hw : w.phase with
  | waiting =>
      rw [hw] at hphase
      exact hphase.1.le
  | fetching block rest =>
      rw [hw] at hphase
      obtain ⟨⟨done, hblocks, hlength⟩, -⟩ := hphase
      rw [hblocks, List.length_append, hlength]
      omega
  | returned err =>
      rw [hw] at hphase
      exact hphase.1
  | panicked =>
      rw [hw] at hphase
      exact hphase.elim

/-- The monitor has returned exactly when something has failed: an error of the channel,
or the events of a block that could not be read. -/
theorem Watched.returned_iff (h : Watched env accounts trace w) :
    (∃ err, w.phase = .returned err) ↔ ¬ NothingFailed env accounts trace := by
  have hphase := h.phase
  cases hw : w.phase with
  | waiting =>
      rw [hw] at hphase
      exact iff_of_false (by simp) (not_not_intro hphase.2)
  | fetching block rest =>
      rw [hw] at hphase
      exact iff_of_false (by simp) (not_not_intro hphase.2)
  | returned err =>
      rw [hw] at hphase
      exact iff_of_true ⟨err, rfl⟩ hphase.2
  | panicked =>
      rw [hw] at hphase
      exact hphase.elim

/-- The alerts are those of the fetched blocks, up to the first one that could not be read. -/
theorem Watched.alerts_fetched (h : Watched env accounts trace w) :
    w.alerts = ((fetchedBlocks trace).takeWhile fun f => blockReadable env accounts f.2).flatMap
      fun f => blockAlerts env accounts f.2 := by
  -- No answer is lost in the zip, since each has its block.
  have hsnd : (fetchedBlocks trace).map Prod.snd = eventAnswers trace :=
    List.map_snd_zip h.length_le
  rw [h.alerts, ← hsnd, List.takeWhile_map, List.flatMap_map]
  rfl

/-- A monitor that waits for a message has asked for every block. -/
theorem Watched.fetched_of_waiting (h : Watched env accounts trace w)
    (hphase : w.phase = .waiting) : (fetchedBlocks trace).map Prod.fst = receivedBlocks trace := by
  have hlength := h.phase
  rw [hphase] at hlength
  exact List.map_fst_zip hlength.1.ge

/-- While the monitor waits for the events of `block`, it has asked for the blocks
before it, and those of the message that are left come after it. -/
theorem Watched.fetched_of_fetching {block : BlockExt} {rest : List BlockExt}
    (h : Watched env accounts trace w) (hphase : w.phase = .fetching block rest) :
    receivedBlocks trace = (fetchedBlocks trace).map Prod.fst ++ block :: rest := by
  have hread := h.phase
  rw [hphase] at hread
  obtain ⟨⟨done, hblocks, hlength⟩, -⟩ := hread
  rw [fetchedBlocks, hblocks, ← List.append_nil (eventAnswers trace),
    List.zip_append hlength.symm, List.zip_nil_right, List.append_nil,
    List.map_fst_zip hlength.ge]

/-- An answer is for the block that the monitor asks for. -/
theorem Watched.fetchedBlocks_events {block : BlockExt} {rest : List BlockExt}
    (h : Watched env accounts trace w) (hphase : w.phase = .fetching block rest)
    (answer : Except SubxtError (List EventDetails)) :
    fetchedBlocks (trace ++ [.events answer]) = fetchedBlocks trace ++ [(block, answer)] := by
  have hread := h.phase
  rw [hphase] at hread
  obtain ⟨⟨done, hblocks, hlength⟩, -⟩ := hread
  rw [fetchedBlocks, fetchedBlocks, receivedBlocks_events, eventAnswers_events, hblocks,
    List.zip_append hlength.symm]
  nth_rewrite 2 [← List.append_nil (eventAnswers trace)]
  rw [List.zip_append hlength.symm, List.zip_nil_right, List.append_nil, List.zip_cons_cons,
    List.zip_nil_right]

/-- A monitor that waits for a message has no request open, so what it receives answers none. -/
theorem Watched.fetchedBlocks_recv (h : Watched env accounts trace w) (hphase : w.phase = .waiting)
    (result : Except RecvError BlocksExt) :
    fetchedBlocks (trace ++ [.recv result]) = fetchedBlocks trace := by
  have hread := h.phase
  rw [hphase] at hread
  rw [fetchedBlocks, fetchedBlocks, eventAnswers_recv]
  cases result with
  | ok blocksExt =>
      rw [receivedBlocks_recv, ← List.append_nil (eventAnswers trace),
        List.zip_append hread.1.symm, List.zip_nil_right, List.append_nil, List.append_nil]
  | error err => rw [receivedBlocks_recv_error]

/-- One step of the monitor keeps that each answer is the node's. Only an answer to
an open request adds one, and it is for the block that the monitor waits for. -/
theorem Watched.answered_step {eventsAt : BlockHash → List EventDetails} {reply : EventsReply}
    (h : Watched env accounts trace w) (hanswered : Answered eventsAt trace)
    (hstep : w.step env reply = some w') (hhears : w.HearsNode eventsAt reply) :
    Answered eventsAt (trace ++ [reply]) := by
  have hfetched : ∀ block rest answer, w.phase = .fetching block rest → reply = .events answer →
      Answered eventsAt (trace ++ [.events answer]) := by
    intro block rest answer hphase hreply f hf
    rw [h.fetchedBlocks_events hphase, List.mem_append, List.mem_singleton] at hf
    rcases hf with hf | rfl
    · exact hanswered f hf
    · exact hhears block rest answer hphase hreply
  have hreceived : ∀ result, w.phase = .waiting → Answered eventsAt (trace ++ [.recv result]) := by
    intro result hphase
    rw [Answered, h.fetchedBlocks_recv hphase]
    exact hanswered
  unfold EventWatcher.step at hstep
  split at hstep
  · rename_i blocksExt hphase
    exact hreceived _ hphase
  · rename_i err hphase
    exact hreceived _ hphase
  · rename_i block rest blockEvents hphase
    exact hfetched block rest _ hphase rfl
  · rename_i block rest err hphase
    exact hfetched block rest _ hphase rfl
  · cases hstep

/-- In a run in which the monitor hears the node, each answer is the node's. -/
theorem run_answered {eventsAt : BlockHash → List EventDetails}
    (hvalid : ∀ account ∈ accounts, env.accountIdFromStr account.address ≠ none) :
    ∀ (trace : List EventsReply) (w : EventWatcher),
      run (step env) (init env accounts) trace = some w →
      AllSteps (step env) (HearsNode eventsAt) (init env accounts) trace →
      Answered eventsAt trace := by
  refine run_history (fun _ f hf => by cases hf) fun trace w reply w' hrun ih hstep hhears => ?_
  rw [allSteps_append_iff] at hhears
  obtain ⟨hbefore, hlast⟩ := hhears
  exact (run_watched hvalid trace w hrun).answered_step (ih hbefore) hstep (hlast w hrun).1

/-- The readable answers of the node are the events of their blocks, so the alerts are
those of these events. -/
theorem alerts_of_answered {eventsAt : BlockHash → List EventDetails}
    (h : Answered eventsAt trace) :
    (((fetchedBlocks trace).takeWhile fun f => blockReadable env accounts f.2).flatMap
        fun f => blockAlerts env accounts f.2) =
      ((fetchedBlocks trace).takeWhile fun f => blockReadable env accounts f.2).flatMap
        fun f => blockAlerts env accounts (.ok (eventsAt f.1.hash)) := by
  refine List.flatMap_congr fun f hf => ?_
  rcases h f (List.takeWhile_subset _ hf) with hok | ⟨err, herr⟩
  · rw [hok]
  · -- An error is not readable.
    have hread := List.mem_takeWhile_imp hf
    rw [herr] at hread
    cases hread

/-- A monitor that has not ended takes what it waits for. -/
theorem step_isSome_of_waiting (hphase : w.phase = .waiting) (result : Except RecvError BlocksExt) :
    (w.step env (.recv result)).isSome = true := by
  cases result <;> simp [EventWatcher.step, hphase]

/-- A monitor that waits for the events of a block takes any answer. -/
theorem step_isSome_of_fetching {block : BlockExt} {rest : List BlockExt}
    (hphase : w.phase = .fetching block rest) (answer : Except SubxtError (List EventDetails)) :
    (w.step env (.events answer)).isSome = true := by
  cases answer <;> simp [EventWatcher.step, hphase]

end EventWatcher

/-- Each monitored event yields exactly its alert, block by block and all or nothing. With valid
addresses, in every run of the monitor over any messages and any answers of the node:

- the alerts are those of the received blocks in their order, up to the first one whose events
  could not be fetched or hold a monitored event that does not decode;
- when each answer is the node's, for the block that the monitor waits for, these are the alerts
  of the events that the node has for each block's own hash;
- a monitor that waits for a message has fetched the events of every block received, and takes any
  message;
- a monitor that waits for the events of `block` has fetched those of the blocks before it, and
  takes any answer;
- the monitor has returned exactly when a block could not be read or the channel has failed, and
  it never panics;
- the alerts of a block are, in the order of the kinds, the alerts of its events, one for each
  event that yields one. -/
theorem event_alerts_by_block (env : EventExternals) (accounts : List Account)
    (trace : List EventsReply) (w : EventWatcher)
    (hvalid : ∀ account ∈ accounts, env.accountIdFromStr account.address ≠ none)
    (hrun : run (EventWatcher.step env) (EventWatcher.init env accounts) trace = some w) :
    (w.alerts = ((fetchedBlocks trace).takeWhile fun f => blockReadable env accounts f.2).flatMap
      fun f => blockAlerts env accounts f.2) ∧
    (∀ eventsAt : BlockHash → List EventDetails,
      AllSteps (EventWatcher.step env) (EventWatcher.HearsNode eventsAt)
        (EventWatcher.init env accounts) trace →
      w.alerts = ((fetchedBlocks trace).takeWhile fun f => blockReadable env accounts f.2).flatMap
        fun f => blockAlerts env accounts (.ok (eventsAt f.1.hash))) ∧
    (w.phase = .waiting → (fetchedBlocks trace).map Prod.fst = receivedBlocks trace ∧
      ∀ result, (w.step env (.recv result)).isSome = true) ∧
    (∀ block rest, w.phase = .fetching block rest →
      receivedBlocks trace = (fetchedBlocks trace).map Prod.fst ++ block :: rest ∧
      ∀ answer, (w.step env (.events answer)).isSome = true) ∧
    ((∃ err, w.phase = .returned err) ↔ ¬ NothingFailed env accounts trace) ∧
    w.phase ≠ .panicked ∧
    ∀ blockEvents, (blockAlerts env accounts (.ok blockEvents)).Perm
      (blockEvents.filterMap (eventAlert env accounts)) := by
  have hwatched := EventWatcher.run_watched hvalid trace w hrun
  refine ⟨hwatched.alerts_fetched, fun eventsAt hhears => ?_, fun hphase => ?_,
    fun block rest hphase => ?_, hwatched.returned_iff, fun hpanicked => ?_,
    blockAlerts_perm env accounts⟩
  · rw [hwatched.alerts_fetched]
    exact EventWatcher.alerts_of_answered (EventWatcher.run_answered hvalid trace w hrun hhears)
  · exact ⟨hwatched.fetched_of_waiting hphase, EventWatcher.step_isSome_of_waiting hphase⟩
  · exact ⟨hwatched.fetched_of_fetching hphase, EventWatcher.step_isSome_of_fetching hphase⟩
  · have hphase := hwatched.phase
    rw [hpanicked] at hphase
    exact hphase

/-! ### A run over two blocks -/

/-- Addresses that are `"alice"` and `"bob"`, and events whose fields are a single byte. -/
def sampleExternals : EventExternals where
  accountIdFromStr address :=
    if address = "alice" then some 1 else if address = "bob" then some 2 else none
  balanceTransfer event :=
    match event.fieldBytes with
    | [amount] => .ok { «from» := 1, «to» := 2, amount := amount.toNat }
    | _ => .error { message := "Not enough data" }
  balanceDeposit event :=
    match event.fieldBytes with
    | [amount] => .ok { who := 2, amount := amount.toNat }
    | _ => .error { message := "Not enough data" }
  balanceWithdraw event :=
    match event.fieldBytes with
    | [amount] => .ok { who := 1, amount := amount.toNat }
    | _ => .error { message := "Not enough data" }
  domainRuntimeUpgraded _ := .error { message := "Not enough data" }
  domainInstantiated _ := .error { message := "Not enough data" }
  fraudProofProcessed _ := .error { message := "Not enough data" }
  operatorSlashed event :=
    match event.fieldBytes with
    | [id] => .ok { operatorId := id.toNat, reason := .invalidBundle 1 }
    | _ => .error { message := "Not enough data" }
  operatorOffline _ := .error { message := "Not enough data" }
  «sudo» _ := .ok {}
  codeUpdated _ := .ok {}

/-- Two of the three entries have one address, and the last one of these is the
configured one. -/
def sampleAccounts : List Account :=
  [{ name := "first", address := "alice" }, { name := "second", address := "bob" },
   { name := "third", address := "alice" }]

/-- A block whose events the node has. -/
def sampleBlock : BlockExt :=
  { number := 1, hash := 2, parentHash := 1, stateRoot := 0, extrinsicsRoot := 0 }

/-- Its child. -/
def sampleChild : BlockExt :=
  { number := 2, hash := 3, parentHash := 2, stateRoot := 0, extrinsicsRoot := 0 }

/-- Block `2` has a slash, a withdraw, a deposit, an event that is not monitored and a
transfer. In block `3` a transfer that does not decode comes after a code update. -/
def sampleEventsAt (hash : BlockHash) : List EventDetails :=
  if hash = 2 then
    [⟨"Domains", "OperatorSlashed", [3]⟩, ⟨"Balances", "Withdraw", [4]⟩,
     ⟨"Balances", "Deposit", [7]⟩, ⟨"Balances", "Endowed", [7]⟩, ⟨"Balances", "Transfer", [9]⟩]
  else if hash = 3 then
    [⟨"System", "CodeUpdated", []⟩, ⟨"Balances", "Transfer", []⟩]
  else []

/-- A message with both blocks, and the node's answers. -/
def sampleTrace : List EventsReply :=
  [.recv (.ok { blocks := [sampleBlock, sampleChild], maybeReorgData := none }),
   .events (.ok (sampleEventsAt 2)), .events (.ok (sampleEventsAt 3))]

/-- The two answers of the message are those of its blocks. -/
theorem sampleTrace_hearsNode :
    AllSteps (EventWatcher.step sampleExternals) (EventWatcher.HearsNode sampleEventsAt)
      (EventWatcher.init sampleExternals sampleAccounts) sampleTrace := by
  have hwaiting : ∀ (w : EventWatcher) result, w.HearsNode sampleEventsAt (.recv result) :=
    fun _ _ _ _ _ _ h => by cases h
  have hfetching : ∀ (w : EventWatcher) block rest, w.phase = .fetching block rest →
      w.HearsNode sampleEventsAt (.events (.ok (sampleEventsAt block.hash))) := by
    intro w block rest hphase block' rest' answer hphase' hanswer
    rw [hphase] at hphase'
    cases hphase'
    cases hanswer
    exact Or.inl rfl
  refine ⟨hwaiting _ _, fun w₁ h₁ => ⟨?_, fun w₂ h₂ => ⟨?_, fun _ _ => trivial⟩⟩⟩
  · cases h₁
    exact hfetching _ sampleBlock [sampleChild] rfl
  · cases h₁
    cases h₂
    exact hfetching _ sampleChild [] rfl

/-- The transfer and the withdraw yield an alert with the last account of the sender,
the deposit one with the receiver, and the slash one of its own. The second block yields
nothing, and the monitor ends there. -/
theorem event_alerts_by_block_sample :
    ∃ w, run (EventWatcher.step sampleExternals)
        (EventWatcher.init sampleExternals sampleAccounts) sampleTrace = some w ∧
      (w.alerts = ((fetchedBlocks sampleTrace).takeWhile
        fun f => blockReadable sampleExternals sampleAccounts f.2).flatMap
          fun f => blockAlerts sampleExternals sampleAccounts (.ok (sampleEventsAt f.1.hash))) ∧
      w.alerts =
        [.event (.transfer ⟨.sender, .transfer, "third", "alice", 9⟩),
         .event (.transfer ⟨.receiver, .deposit, "second", "bob", 7⟩),
         .event (.transfer ⟨.sender, .withdraw, "third", "alice", 4⟩),
         .event (.operatorSlashed 3 (.invalidBundle 1))] ∧
      ∃ err, w.phase = .returned err := by
  have hvalid : ∀ account ∈ sampleAccounts,
      sampleExternals.accountIdFromStr account.address ≠ none := by decide
  obtain ⟨w, hrun⟩ : ∃ w, run (EventWatcher.step sampleExternals)
      (EventWatcher.init sampleExternals sampleAccounts) sampleTrace = some w := ⟨_, rfl⟩
  obtain ⟨-, halerts, -, -, hreturned, -⟩ :=
    event_alerts_by_block sampleExternals sampleAccounts sampleTrace w hvalid hrun
  have halerts := halerts sampleEventsAt sampleTrace_hearsNode
  refine ⟨w, hrun, halerts, halerts.trans (by decide), hreturned.mpr fun h => ?_⟩
  -- The transfer of the second block does not decode.
  exact absurd (h.1 (.ok (sampleEventsAt 3)) (by simp [sampleTrace, eventAnswers])) (by decide)

end ChainAlerter
