import ChainAlerter.Library.LineText
import ChainAlerter.Model.Slots
import ChainAlerter.Proofs.Amounts

/-!
# `ChainAlerter.Proofs.Texts`: an alert can be read back from its text

The text of an alert is a title and lines below it, each with a label and a value. The
title is that of its kind, and `alertLines` are the lines. A transfer is the exception:
the name of its account is printed as it is, with any line breaks in it.

`alert_texts_injective` is the result: no two alerts have the same text. So what Slack
shows determines the alert with all its fields, such as every retracted block of a
reorg. It asks of the crates that write hashes and times that they write different ones
differently, and of an address that it has no bracket in it.
-/

set_option autoImplicit false

namespace ChainAlerter

open ChainAlerter.Library

/-! ### Kinds and titles -/

/-- The kinds of alerts that have a title of their own. -/
inductive AlertKind where
  | transfer
  | domainRuntimeUpgraded
  | domainInstantiated
  | fraudProofProcessed
  | operatorSlashed
  | operatorOffline
  | sudid
  | codeUpdated
  | chainStall
  | chainRecovery
  | reorg
  | timekeeperStall
  | timekeeperRecovery
  | slowSlot
  | avgSlowSlots
  deriving DecidableEq, Repr

/-- The kind of an alert. -/
def Alert.kind : Alert → AlertKind
  | .event (.transfer _) => .transfer
  | .event (.domainRuntimeUpgraded _) => .domainRuntimeUpgraded
  | .event (.domainInstantiated _) => .domainInstantiated
  | .event (.fraudProofProcessed _ _) => .fraudProofProcessed
  | .event (.operatorSlashed _ _) => .operatorSlashed
  | .event (.operatorOffline _ _ _ _ _) => .operatorOffline
  | .event .sudo => .sudid
  | .event .codeUpdated => .codeUpdated
  | .chainStall _ => .chainStall
  | .chainRecovery _ => .chainRecovery
  | .reorg _ => .reorg
  | .timekeeperStall _ => .timekeeperStall
  | .timekeeperRecovery _ => .timekeeperRecovery
  | .slowSlot _ => .slowSlot
  | .avgSlowSlots _ => .avgSlowSlots

namespace AlertKind

/-- The first line of the text. -/
def title : AlertKind → String
  | transfer => "**Balance transfer**"
  | domainRuntimeUpgraded => "**Domain runtime upgraded**"
  | domainInstantiated => "**Domain instantiated**"
  | fraudProofProcessed => "**Fraud proof processed**"
  | operatorSlashed => "**Operator slashed**"
  | operatorOffline => "**Operator offline**"
  | sudid => "**Sudo event triggered**"
  | codeUpdated => "**Runtime code updated**"
  | chainStall => "**Block production stalled**"
  | chainRecovery => "**Block production resumed**"
  | reorg => "**Chain reorg**"
  | timekeeperStall => "**Timekeeper stalled**"
  | timekeeperRecovery => "**Timekeeper resumed**"
  | slowSlot => "**Slow slot**"
  | avgSlowSlots => "**Average Slow slots**"

/-- Different kinds of alerts have different titles, so the first line of a text
tells the kind. -/
theorem title_injective : Function.Injective title := by
  intro a b h
  cases a <;> cases b <;> first | rfl | exact absurd h (by decide)

/-- A title is a single line, so it ends where the other lines begin. -/
theorem isLine_title (kind : AlertKind) : IsLine kind.title := by
  cases kind <;> decide

end AlertKind

/-! ### Lines -/

namespace MdFormat

variable (env : FormatExternals) (config : FormatConfig)

/-- The lines of a list of blocks. An empty list leaves an empty line. -/
def blockLines : List HashAndNumber → List String
  | [] => [""]
  | blocks => blocks.map fun block => "- " ++ formatHashAndNumber env config block

/-- The lines below the title, except for a transfer. -/
def alertLines : Alert → List String
  | .event (.transfer _) => []
  | .event (.domainRuntimeUpgraded runtimeId) => ["Runtime ID: " ++ toString runtimeId]
  | .event (.domainInstantiated domainId) => ["Domain ID: " ++ debugDomainId domainId]
  | .event (.fraudProofProcessed domainId none) => ["Domain ID: " ++ debugDomainId domainId]
  | .event (.fraudProofProcessed domainId (some blockNumber)) =>
      ["Domain ID: " ++ debugDomainId domainId, "New head receipt number: " ++ toString blockNumber]
  | .event (.operatorSlashed operatorId reason) =>
      ["Operator ID: " ++ toString operatorId, "Reason: " ++ formatSlashedReason env reason]
  | .event (.operatorOffline operatorId domainId submitted expected minRequired) =>
      ["Operator ID: " ++ toString operatorId, "Domain ID: " ++ debugDomainId domainId,
       "Submitted bundles: " ++ toString submitted, "Expected bundles: " ++ toString expected,
       "Min required bundles: " ++ toString minRequired]
  | .event .sudo => []
  | .event .codeUpdated => []
  | .chainStall stall =>
      ["Last block: " ++ formatHashAndNumber env config stall.lastBlock,
       "Time since last block: " ++ env.formatDuration stall.duration]
  | .chainRecovery recovery =>
      ["Best block: " ++ formatHashAndNumber env config recovery.bestBlock,
       "Resumed after: " ++ env.formatDuration recovery.duration]
  | .reorg reorg =>
      ["Best block: " ++ formatHashAndNumber env config reorg.bestBlock,
       "Common block: " ++ formatHashAndNumber env config reorg.commonBlock, "Retracted blocks:"]
      ++ blockLines env config reorg.retracted ++ ["Enacted blocks:"]
      ++ blockLines env config reorg.enacted
      ++ ["Reorg Depth: " ++ toString reorg.retracted.length]
  | .timekeeperStall stall =>
      ["Last slot: " ++ toString stall.lastSlot,
       "Time since last block: " ++ env.formatDuration stall.duration]
  | .timekeeperRecovery recovery =>
      ["Slot: " ++ toString recovery.slot,
       "Resumed after: " ++ env.formatDuration recovery.duration]
  | .slowSlot slow =>
      ["Slot: " ++ toString slow.slot, "Previous slot: " ++ toString slow.previousSlot,
       "Slot time: " ++ env.formatDuration slow.slotTime,
       "Threshold: " ++ env.formatDuration slow.threshold]
  | .avgSlowSlots slow =>
      ["Slot: " ++ toString slow.slot, "Slot count: " ++ toString slow.slotCount,
       "Avg Slot time: " ++ env.formatDuration slow.avgSlotTime,
       "Threshold: " ++ env.formatDuration slow.threshold]

variable {env config}

/-- The formatted list of blocks is its lines, joined by line ends. The empty list is
the one case with a line of its own. -/
theorem formatHashAndNumberList_eq (blocks : List HashAndNumber) :
    formatHashAndNumberList env config blocks =
      "\n".intercalate (blockLines env config blocks) := by
  cases blocks with
  | nil => rfl
  | cons block blocks => rfl

/-- A list of blocks has at least one line, the empty one for no blocks. So its joined
text can be split again. -/
theorem blockLines_ne_nil (env : FormatExternals) (config : FormatConfig)
    (blocks : List HashAndNumber) : blockLines env config blocks ≠ [] := by
  cases blocks <;> simp [blockLines]

/-- The text of an event other than a transfer is its title and its lines. Each branch
of the source's formatter writes the same text in one string. -/
theorem formatEvent_eq_lines (event : Event) (h : (Alert.event event).kind ≠ .transfer) :
    formatEvent env config event =
      .ok ("\n".intercalate
        ((Alert.event event).kind.title :: alertLines env config (.event event))) := by
  cases event with
  | transfer transfer => exact absurd rfl h
  | fraudProofProcessed domainId newHeadReceiptNumber =>
      cases newHeadReceiptNumber <;>
        simp only [formatEvent, alertLines, Alert.kind, AlertKind.title,
          String.intercalate_cons_cons, String.intercalate_singleton, toString_string,
          ← String.append_assoc] <;>
        simp only [append_newline, String.reduceAppend]
  | «sudo» => rfl
  | codeUpdated => rfl
  | _ =>
      simp only [formatEvent, alertLines, Alert.kind, AlertKind.title, String.intercalate_cons_cons,
        String.intercalate_singleton, toString_string, ← String.append_assoc]
      simp only [append_newline, String.reduceAppend]

/-- The text of a reorg is its title and its lines, with the lines of the two lists of
blocks among them. -/
theorem formatReorg_eq_lines (reorg : ChainReorg) :
    formatReorg env config reorg =
      "\n".intercalate (AlertKind.reorg.title :: alertLines env config (.reorg reorg)) := by
  have hretracted := blockLines_ne_nil env config reorg.retracted
  have henacted := blockLines_ne_nil env config reorg.enacted
  simp only [alertLines, ← List.cons_append]
  -- The list of lines is taken apart at the two lists of blocks.
  rw [String.intercalate_append_of_ne_nil (by simp) (by simp),
    String.intercalate_append_of_ne_nil (by simp) henacted,
    String.intercalate_append_of_ne_nil (by simp) (by simp),
    String.intercalate_append_of_ne_nil (by simp) hretracted,
    ← formatHashAndNumberList_eq, ← formatHashAndNumberList_eq]
  delta formatReorg
  rw [show "\nRetracted blocks:\n" = "\nRetracted blocks:" ++ "\n" from rfl,
    show "\nEnacted blocks:\n" = "\nEnacted blocks:" ++ "\n" from rfl]
  simp only [AlertKind.title, String.intercalate_cons_cons, String.intercalate_singleton,
    toString_string, ← String.append_assoc]
  simp only [append_newline, String.reduceAppend]

/-- The text of every alert other than a transfer is its title and its lines. From here
on texts are compared line by line. -/
theorem formatAlert_eq_lines (alert : Alert) (h : alert.kind ≠ .transfer) :
    formatAlert env config alert =
      .ok ("\n".intercalate (alert.kind.title :: alertLines env config alert)) := by
  cases alert with
  | event event => exact formatEvent_eq_lines event h
  | reorg reorg => exact congrArg Except.ok (formatReorg_eq_lines reorg)
  | _ =>
      delta formatAlert formatChainStall formatChainRecovery formatTimekeeperStall
        formatTimekeeperRecovery formatSlowSlot formatAvgSlowSlot
      simp only [alertLines, Alert.kind, AlertKind.title, String.intercalate_cons_cons,
        String.intercalate_singleton, toString_string, ← String.append_assoc]
      simp only [append_newline, String.reduceAppend]

end MdFormat

/-! ### The values on a line -/

/-- What the other crates promise about the texts that they write: none of them has a
line break, a hash is written in 64 digits, and different hashes and times are
written differently. -/
structure FormatExternals.LawfulTexts (env : FormatExternals) : Prop where
  isLine_displayHash : ∀ hash, IsLine (env.displayHash hash)
  isLine_hexEncode : ∀ hash, IsLine (env.hexEncode hash)
  length_hexEncode : ∀ hash, (env.hexEncode hash).toList.length = 64
  hexEncode_injective : Function.Injective env.hexEncode
  isLine_urlEncode : ∀ text, IsLine (env.urlEncode text)
  isLine_formatDuration : ∀ duration ≤ Duration.MAX, IsLine (env.formatDuration duration)
  formatDuration_injective : ∀ duration ≤ Duration.MAX, ∀ duration' ≤ Duration.MAX,
    env.formatDuration duration = env.formatDuration duration' → duration = duration'

/-- The durations of an alert are those of a `Duration`, the amount is a `u128`, and the
address is one: it has no bracket. -/
def Alert.Readable : Alert → Prop
  | .event (.transfer transfer) => transfer.amount < 2 ^ 128 ∧ '[' ∉ transfer.address.toList
  | .event _ => True
  | .chainStall stall => stall.duration ≤ Duration.MAX
  | .chainRecovery recovery => recovery.duration ≤ Duration.MAX
  | .reorg _ => True
  | .timekeeperStall stall => stall.duration ≤ Duration.MAX
  | .timekeeperRecovery recovery => recovery.duration ≤ Duration.MAX
  | .slowSlot slow => slow.slotTime ≤ Duration.MAX ∧ slow.threshold ≤ Duration.MAX
  | .avgSlowSlots slow => slow.avgSlotTime ≤ Duration.MAX ∧ slow.threshold ≤ Duration.MAX

namespace MdFormat

/-- A domain id is written without a line end. -/
theorem isLine_debugDomainId (domainId : Nat) : IsLine (debugDomainId domainId) := by
  delta debugDomainId
  simp only [toString_string, isLine_append_iff, isLine_digits, and_true]
  decide

/-- The text of a domain id determines it, as a number is determined by its digits
between the two fixed parts. -/
theorem debugDomainId_injective {domainId domainId' : Nat}
    (h : debugDomainId domainId = debugDomainId domainId') : domainId = domainId' := by
  delta debugDomainId at h
  simp only [toString_string, String.append_left_inj, String.append_right_inj] at h
  exact digits_injective h

/-- The text of a block before the digits of its hash. -/
def linkHead (env : FormatExternals) (config : FormatConfig) (hash : BlockHash) : String :=
  "[" ++ env.displayHash hash ++ "](" ++ "https://polkadot.js.org/apps/?rpc="
    ++ env.urlEncode config.rpcUrl ++ "#/explorer/query/0x"

/-- The characters of a formatted block: the link that ends in the full hash, and then
the number in brackets. The number has no bracket, and the hash has a fixed length, so
both can be read back from the end. -/
theorem toList_formatHashAndNumber (env : FormatExternals) (config : FormatConfig)
    (block : HashAndNumber) :
    (formatHashAndNumber env config block).toList =
      (linkHead env config block.hash).toList ++ (env.hexEncode block.hash).toList ++ [')', ' ']
        ++ '(' :: ((toString block.number).toList ++ [')']) := by
  have htext : formatHashAndNumber env config block =
      linkHead env config block.hash ++ env.hexEncode block.hash ++ ") " ++ "("
        ++ toString block.number ++ ")" := by
    delta formatHashAndNumber linkHead
    rw [show ") (" = ") " ++ "(" from rfl]
    simp only [toString_string, ← String.append_assoc]
  rw [htext]
  simp

section
variable {env : FormatExternals} {config : FormatConfig} (htexts : env.LawfulTexts)
include htexts

/-- A formatted block is a single line. -/
theorem isLine_formatHashAndNumber (block : HashAndNumber) :
    IsLine (formatHashAndNumber env config block) := by
  have hhash := htexts.isLine_displayHash block.hash
  have hhex := htexts.isLine_hexEncode block.hash
  have hurl := htexts.isLine_urlEncode config.rpcUrl
  delta formatHashAndNumber
  simp only [toString_string, isLine_append_iff, isLine_digits, hhash, hhex, hurl, and_true]
  decide

/-- The number stands after the last bracket, and the hash are the 64 digits before it.
So a formatted block determines both. -/
theorem formatHashAndNumber_injective {block block' : HashAndNumber}
    (h : formatHashAndNumber env config block = formatHashAndNumber env config block') :
    block = block' := by
  have hchars := congrArg String.toList h
  rw [toList_formatHashAndNumber, toList_formatHashAndNumber] at hchars
  have hnotMem : ∀ n : Nat, '(' ∉ (toString n).toList ++ [')'] := by
    intro n
    rw [List.mem_append, not_or]
    exact ⟨notMem_digits rfl n, by decide⟩
  obtain ⟨hlink, hnumber⟩ := append_cons_inj_of_notMem_right (hnotMem _) (hnotMem _) hchars
  have hlength : (env.hexEncode block.hash).toList.length =
      (env.hexEncode block'.hash).toList.length := by
    rw [htexts.length_hexEncode, htexts.length_hexEncode]
  obtain ⟨-, hhex⟩ := List.append_inj' (List.append_cancel_right hlink) hlength
  have hhash := htexts.hexEncode_injective (String.toList_injective hhex)
  have hdigits := digits_injective (String.toList_injective (List.append_cancel_right hnumber))
  cases block
  cases block'
  simp_all

omit htexts in
/-- The text for an invalid bundle names the block. -/
theorem formatSlashedReason_invalidBundle (number : Nat) :
    formatSlashedReason env (.invalidBundle number) =
      "Invalid bundle at block: " ++ toString number := by
  delta formatSlashedReason
  simp only [toString_string]

omit htexts in
/-- The text for a bad execution receipt names the hash of the receipt. -/
theorem formatSlashedReason_badExecutionReceipt (hash : BlockHash) :
    formatSlashedReason env (.badExecutionReceipt hash) =
      "Bad execution receipt: 0x\"" ++ env.hexEncode hash ++ "\"" := by
  delta formatSlashedReason
  simp only [toString_string]

/-- A reason is written without a line end. -/
theorem isLine_formatSlashedReason (reason : SlashedReason) :
    IsLine (formatSlashedReason env reason) := by
  cases reason with
  | invalidBundle number =>
      rw [formatSlashedReason_invalidBundle, isLine_append_iff]
      exact ⟨by decide, isLine_digits number⟩
  | badExecutionReceipt hash =>
      rw [formatSlashedReason_badExecutionReceipt, isLine_append_iff, isLine_append_iff]
      exact ⟨⟨by decide, htexts.isLine_hexEncode hash⟩, by decide⟩

/-- The text of a reason determines it. The two kinds differ in their first letter, and
the number or the hash is at the end. -/
theorem formatSlashedReason_injective {reason reason' : SlashedReason}
    (h : formatSlashedReason env reason = formatSlashedReason env reason') : reason = reason' := by
  have hhead := congrArg (fun text => text.toList.head?) h
  cases reason with
  | invalidBundle number =>
      cases reason' with
      | invalidBundle number' =>
          rw [formatSlashedReason_invalidBundle, formatSlashedReason_invalidBundle,
            String.append_right_inj] at h
          rw [digits_injective h]
      | badExecutionReceipt hash =>
          rw [formatSlashedReason_invalidBundle, formatSlashedReason_badExecutionReceipt] at hhead
          simp at hhead
  | badExecutionReceipt hash =>
      cases reason' with
      | invalidBundle number =>
          rw [formatSlashedReason_invalidBundle, formatSlashedReason_badExecutionReceipt] at hhead
          simp at hhead
      | badExecutionReceipt hash' =>
          rw [formatSlashedReason_badExecutionReceipt, formatSlashedReason_badExecutionReceipt,
            String.append_left_inj, String.append_right_inj] at h
          rw [htexts.hexEncode_injective h]

/-- Each line of a list of blocks is a single line. -/
theorem isLine_blockLines (blocks : List HashAndNumber) :
    ∀ line ∈ blockLines env config blocks, IsLine line := by
  cases blocks with
  | nil =>
      intro line hline
      rw [List.mem_singleton.mp hline]
      decide
  | cons block blocks =>
      intro line hline
      obtain ⟨block', -, rfl⟩ := List.mem_map.mp hline
      exact isLine_append_iff.mpr ⟨by decide, isLine_formatHashAndNumber htexts block'⟩

/-- The lines below the title have no line breaks. Labels and numbers have none, and the
texts of hashes and durations have none by assumption. -/
theorem isLine_alertLines {alert : Alert} (hreadable : alert.Readable) :
    ∀ line ∈ alertLines env config alert, IsLine line := by
  have hblock : ∀ block, IsLine (formatHashAndNumber env config block) :=
    isLine_formatHashAndNumber htexts
  have hduration := htexts.isLine_formatDuration
  cases alert with
  | event event =>
      cases event with
      | transfer transfer => simp [alertLines]
      | fraudProofProcessed domainId newHeadReceiptNumber =>
          cases newHeadReceiptNumber <;>
            simp [alertLines, isLine_debugDomainId] <;> decide
      | operatorSlashed operatorId reason =>
          simp [alertLines, isLine_formatSlashedReason htexts]
          decide
      | «sudo» => simp [alertLines]
      | codeUpdated => simp [alertLines]
      | _ =>
          simp [alertLines, isLine_debugDomainId]
          decide
  | reorg reorg =>
      intro line hline
      simp only [alertLines, List.mem_append] at hline
      rcases hline with (((hhead | hretracted) | hlabel) | henacted) | hdepth
      · revert line
        simp [hblock]
        decide
      · exact isLine_blockLines htexts reorg.retracted line hretracted
      · rw [List.mem_singleton.mp hlabel]
        decide
      · exact isLine_blockLines htexts reorg.enacted line henacted
      · rw [List.mem_singleton.mp hdepth, isLine_append_iff]
        exact ⟨by decide, isLine_digits _⟩
  | chainStall stall =>
      simp [alertLines, hblock, hduration _ hreadable]
      decide
  | chainRecovery recovery =>
      simp [alertLines, hblock, hduration _ hreadable]
      decide
  | timekeeperStall stall =>
      simp [alertLines, hduration _ hreadable]
      decide
  | timekeeperRecovery recovery =>
      simp [alertLines, hduration _ hreadable]
      decide
  | slowSlot slow =>
      simp [alertLines, hduration _ hreadable.1, hduration _ hreadable.2]
      decide
  | avgSlowSlots slow =>
      simp [alertLines, hduration _ hreadable.1, hduration _ hreadable.2]
      decide

omit htexts in
/-- A line of a block starts with a dash, so it is not a label that starts with
something else. This is how the end of a list of blocks is found. -/
theorem dash_ne {label : String} (h : label.toList.head? ≠ some '-') (text : String) :
    "- " ++ text ≠ label := by
  rintro rfl
  simp at h

/-- A list of blocks can be read back from its lines, when a line of another kind
follows. The empty line of an empty list is not the line of a block. -/
theorem blockLines_injective {blocks blocks' : List HashAndNumber} {label : String}
    (hlabel : ∀ text, "- " ++ text ≠ label) {rest rest' : List String}
    (h : blockLines env config blocks ++ label :: rest =
      blockLines env config blocks' ++ label :: rest') :
    blocks = blocks' ∧ rest = rest' := by
  have hdash : ∀ text : String, "" ≠ "- " ++ text := by
    intro text hempty
    simpa using congrArg String.toList hempty
  cases blocks with
  | nil =>
      cases blocks' with
      | nil => exact ⟨rfl, (List.cons.inj (List.cons.inj h).2).2⟩
      | cons block' blocks' => exact absurd (List.cons.inj h).1 (hdash _)
  | cons block blocks =>
      cases blocks' with
      | nil => exact absurd (List.cons.inj h).1.symm (hdash _)
      | cons block' blocks' =>
          refine map_append_cons_inj (fun b b' hbb' => ?_) (fun b => hlabel _) h
          exact formatHashAndNumber_injective htexts ((String.append_right_inj _).mp hbb')

/-- Two events of one kind with the same lines are the same. Each line is a fixed label
and the text of one field, and the text determines the field. A fraud proof with a
receipt number has one line more than one without. -/
theorem eventLines_injective {event event' : Event}
    (hkind : (Alert.event event).kind = (Alert.event event').kind)
    (hne : (Alert.event event).kind ≠ .transfer)
    (h : alertLines env config (.event event) = alertLines env config (.event event')) :
    event = event' := by
  cases event with
  | transfer transfer => exact absurd rfl hne
  | domainRuntimeUpgraded runtimeId =>
      cases event' with
      | domainRuntimeUpgraded runtimeId' =>
          simp only [alertLines, List.cons.injEq, String.append_right_inj, and_true] at h
          rw [digits_injective h]
      | _ => cases hkind
  | domainInstantiated domainId =>
      cases event' with
      | domainInstantiated domainId' =>
          simp only [alertLines, List.cons.injEq, String.append_right_inj, and_true] at h
          rw [debugDomainId_injective h]
      | _ => cases hkind
  | fraudProofProcessed domainId newHeadReceiptNumber =>
      cases event' with
      | fraudProofProcessed domainId' newHeadReceiptNumber' =>
          cases newHeadReceiptNumber <;> cases newHeadReceiptNumber' <;>
            simp only [alertLines, List.cons.injEq, String.append_right_inj, and_true,
              reduceCtorEq, and_false] at h
          · rw [debugDomainId_injective h]
          · rw [debugDomainId_injective h.1, digits_injective h.2]
      | _ => cases hkind
  | operatorSlashed operatorId reason =>
      cases event' with
      | operatorSlashed operatorId' reason' =>
          simp only [alertLines, List.cons.injEq, String.append_right_inj, and_true] at h
          rw [digits_injective h.1, formatSlashedReason_injective htexts h.2]
      | _ => cases hkind
  | operatorOffline operatorId domainId submitted expected minRequired =>
      cases event' with
      | operatorOffline operatorId' domainId' submitted' expected' minRequired' =>
          simp only [alertLines, List.cons.injEq, String.append_right_inj, and_true] at h
          obtain ⟨hoperator, hdomain, hsubmitted, hexpected, hmin⟩ := h
          rw [digits_injective hoperator, debugDomainId_injective hdomain,
            digits_injective hsubmitted, digits_injective hexpected, digits_injective hmin]
      | _ => cases hkind
  | «sudo» =>
      cases event' with
      | «sudo» => rfl
      | _ => cases hkind
  | codeUpdated =>
      cases event' with
      | codeUpdated => rfl
      | _ => cases hkind

omit htexts in
/-- Only events have the kind of one. -/
theorem exists_event_of_kind {event : Event} {alert : Alert}
    (h : (Alert.event event).kind = alert.kind) :
    ∃ event', alert = .event event' := by
  cases alert with
  | event event' => exact ⟨event', rfl⟩
  | _ => cases event <;> cases h

/-- An alert that is no transfer can be read back from its lines. For most kinds each
line gives one field. For a reorg the two lists of blocks are read up to the label that
follows them. -/
theorem alertLines_injective {alert alert' : Alert} (hreadable : alert.Readable)
    (hreadable' : alert'.Readable) (hkind : alert.kind = alert'.kind) (hne : alert.kind ≠ .transfer)
    (h : alertLines env config alert = alertLines env config alert') : alert = alert' := by
  have hduration := htexts.formatDuration_injective
  have hblock : ∀ {block block' : HashAndNumber}, formatHashAndNumber env config block =
      formatHashAndNumber env config block' → block = block' := formatHashAndNumber_injective htexts
  cases alert with
  | event event =>
      obtain ⟨event', rfl⟩ := exists_event_of_kind hkind
      rw [eventLines_injective htexts hkind hne h]
  | chainStall stall =>
      cases alert' with
      | chainStall stall' =>
          obtain ⟨lastBlock, duration⟩ := stall
          obtain ⟨lastBlock', duration'⟩ := stall'
          simp only [alertLines, List.cons.injEq, String.append_right_inj, and_true] at h
          rw [hblock h.1, hduration duration hreadable duration' hreadable' h.2]
      | event event' => cases event' <;> cases hkind
      | _ => cases hkind
  | chainRecovery recovery =>
      cases alert' with
      | chainRecovery recovery' =>
          obtain ⟨bestBlock, duration⟩ := recovery
          obtain ⟨bestBlock', duration'⟩ := recovery'
          simp only [alertLines, List.cons.injEq, String.append_right_inj, and_true] at h
          rw [hblock h.1, hduration duration hreadable duration' hreadable' h.2]
      | event event' => cases event' <;> cases hkind
      | _ => cases hkind
  | reorg reorg =>
      cases alert' with
      | reorg reorg' =>
          obtain ⟨bestBlock, commonBlock, enacted, retracted⟩ := reorg
          obtain ⟨bestBlock', commonBlock', enacted', retracted'⟩ := reorg'
          simp only [alertLines, List.append_assoc, List.cons_append, List.nil_append,
            List.cons.injEq, String.append_right_inj, true_and] at h
          obtain ⟨hbest, hcommon, hlists⟩ := h
          -- The two lists are told apart by the labels after them.
          obtain ⟨rfl, hrest⟩ := blockLines_injective htexts (dash_ne (by decide)) hlists
          obtain ⟨rfl, -⟩ := blockLines_injective htexts (dash_ne (by simp)) hrest
          rw [hblock hbest, hblock hcommon]
      | event event' => cases event' <;> cases hkind
      | _ => cases hkind
  | timekeeperStall stall =>
      cases alert' with
      | timekeeperStall stall' =>
          obtain ⟨lastSlot, duration⟩ := stall
          obtain ⟨lastSlot', duration'⟩ := stall'
          simp only [alertLines, List.cons.injEq, String.append_right_inj, and_true] at h
          rw [digits_injective h.1, hduration duration hreadable duration' hreadable' h.2]
      | event event' => cases event' <;> cases hkind
      | _ => cases hkind
  | timekeeperRecovery recovery =>
      cases alert' with
      | timekeeperRecovery recovery' =>
          obtain ⟨slot, duration⟩ := recovery
          obtain ⟨slot', duration'⟩ := recovery'
          simp only [alertLines, List.cons.injEq, String.append_right_inj, and_true] at h
          rw [digits_injective h.1, hduration duration hreadable duration' hreadable' h.2]
      | event event' => cases event' <;> cases hkind
      | _ => cases hkind
  | slowSlot slow =>
      cases alert' with
      | slowSlot slow' =>
          obtain ⟨slot, previousSlot, slotTime, threshold⟩ := slow
          obtain ⟨slot', previousSlot', slotTime', threshold'⟩ := slow'
          simp only [alertLines, List.cons.injEq, String.append_right_inj, and_true] at h
          obtain ⟨hslot, hprevious, htime, hthreshold⟩ := h
          rw [digits_injective hslot, digits_injective hprevious,
            hduration slotTime hreadable.1 slotTime' hreadable'.1 htime,
            hduration threshold hreadable.2 threshold' hreadable'.2 hthreshold]
      | event event' => cases event' <;> cases hkind
      | _ => cases hkind
  | avgSlowSlots slow =>
      cases alert' with
      | avgSlowSlots slow' =>
          obtain ⟨slot, slotCount, avgSlotTime, threshold⟩ := slow
          obtain ⟨slot', slotCount', avgSlotTime', threshold'⟩ := slow'
          simp only [alertLines, List.cons.injEq, String.append_right_inj, and_true] at h
          obtain ⟨hslot, hcount, htime, hthreshold⟩ := h
          rw [digits_injective hslot, digits_injective hcount,
            hduration avgSlotTime hreadable.1 avgSlotTime' hreadable'.1 htime,
            hduration threshold hreadable.2 threshold' hreadable'.2 hthreshold]
      | event event' => cases event' <;> cases hkind
      | _ => cases hkind

end

/-! ### Transfers -/

/-- The text of a direction determines it. -/
theorem TransferDirection.debug_injective {direction direction' : TransferDirection}
    (h : direction.debug = direction'.debug) : direction = direction' := by
  cases direction <;> cases direction' <;> first | rfl | exact absurd h (by decide)

/-- The text of a transfer type determines it. -/
theorem TransferType.debug_injective {transferType transferType' : TransferType}
    (h : transferType.debug = transferType'.debug) : transferType = transferType' := by
  cases transferType <;> cases transferType' <;> first | rfl | exact absurd h (by decide)

/-- The text of a transfer, at the characters by which it is taken apart. The name of
the account may have brackets, so it ends at the last opening one, and the address
must have none. -/
theorem toList_transfer (transfer : TransferKnownAccountEvent) (balance : String) :
    (transferHead transfer ++ balance).toList =
      ("**Balance transfer**\nDirection: ".toList ++ (transfer.direction.debug.toList ++
        '\n' :: ("Type: ".toList ++ (transfer.transferType.debug.toList ++
          '\n' :: ("Account: ".toList ++ (transfer.name.toList ++
            '[' :: (transfer.address.toList ++ [']'])))))))
      ++ '\n' :: ("Amount:".toList ++ balance.toList) := by
  have htext : transferHead transfer ++ balance =
      "**Balance transfer**\nDirection: " ++ transfer.direction.debug ++ "\n" ++ "Type: "
        ++ transfer.transferType.debug ++ "\n" ++ "Account: " ++ transfer.name ++ "["
        ++ transfer.address ++ "]" ++ "\n" ++ "Amount:" ++ balance := by
    delta transferHead
    rw [show "]\nAmount:" = "]" ++ "\n" ++ "Amount:" from rfl,
      show "\nType: " = "\n" ++ "Type: " from rfl,
      show "\nAccount: " = "\n" ++ "Account: " from rfl]
    simp only [← String.append_assoc]
  rw [htext]
  simp only [String.toList_append, List.append_assoc, List.cons_append, List.nil_append]
  rfl

/-- A direction is written without a line end. -/
theorem TransferDirection.isLine_debug (direction : TransferDirection) :
    IsLine direction.debug := by
  cases direction <;> decide

/-- A transfer type is written without a line end. -/
theorem TransferType.isLine_debug (transferType : TransferType) : IsLine transferType.debug := by
  cases transferType <;> decide

/-- Different amounts have different texts. Each text stands for the exact quotient by
the same power of ten. -/
theorem amount_injective {env : FormatExternals} {config : FormatConfig} (henv : env.Lawful)
    {amount amount' : Nat} (hamount : amount < 2 ^ 128) (hamount' : amount' < 2 ^ 128)
    {text : String}
    (h : formatBalance env config amount = .ok text)
    (h' : formatBalance env config amount' = .ok text) : amount = amount' := by
  obtain ⟨number, htext, hvalue⟩ := prints_of_formatBalance henv hamount h
  obtain ⟨number', htext', hvalue'⟩ := prints_of_formatBalance henv hamount' h'
  rw [htext, String.append_left_inj, String.append_left_inj] at htext'
  rw [htext', hvalue', Option.some.injEq] at hvalue
  have hpower : (10 : ℚ) ^ config.tokenDecimals.toNat ≠ 0 := by positivity
  rw [div_left_inj' hpower] at hvalue
  exact_mod_cast hvalue.symm

/-- An amount is a number on one line with the name of the token after it. -/
theorem exists_number {env : FormatExternals} {config : FormatConfig} (henv : env.Lawful)
    {amount : Nat} (hamount : amount < 2 ^ 128) {text : String}
    (h : formatBalance env config amount = .ok text) :
    ∃ number, text = number ++ (" " ++ config.tokenName) ∧ IsLine number := by
  obtain ⟨number, rfl, hvalue⟩ := prints_of_formatBalance henv hamount h
  exact ⟨number, String.append_assoc, notMem_of_decimalValue hvalue (by decide) (by decide)⟩

/-- The text of a transfer ends with its amount. -/
theorem exists_balance {env : FormatExternals} {config : FormatConfig}
    {transfer : TransferKnownAccountEvent} {text : String}
    (h : formatAlert env config (.event (.transfer transfer)) = .ok text) :
    ∃ balance, formatBalance env config transfer.amount = .ok balance ∧
      text = transferHead transfer ++ balance := by
  rw [formatAlert_transfer] at h
  cases hbalance : formatBalance env config transfer.amount with
  | error reason =>
      rw [hbalance] at h
      cases h
  | ok balance =>
      rw [hbalance] at h
      exact ⟨balance, rfl, (Except.ok.inj h).symm⟩

/-- The amount stands on the last line. Above it the direction and the type end at the
next line break, and the address starts at the last bracket. -/
theorem transferText_injective {transfer transfer' : TransferKnownAccountEvent}
    {balance balance' : String} (hline : IsLine balance) (hline' : IsLine balance')
    (haddress : '[' ∉ transfer.address.toList) (haddress' : '[' ∉ transfer'.address.toList)
    (h : transferHead transfer ++ balance = transferHead transfer' ++ balance') :
    balance = balance' ∧ transfer.direction = transfer'.direction ∧
      transfer.transferType = transfer'.transferType ∧ transfer.name = transfer'.name ∧
      transfer.address = transfer'.address := by
  have hchars := congrArg String.toList h
  rw [toList_transfer, toList_transfer] at hchars
  have hlast : ∀ {text : String}, IsLine text → '\n' ∉ "Amount:".toList ++ text.toList := by
    intro text htext
    rw [List.mem_append, not_or]
    exact ⟨by decide, htext⟩
  obtain ⟨hhead, hbalance⟩ := append_cons_inj_of_notMem_right (hlast hline) (hlast hline') hchars
  obtain ⟨hdirection, hhead⟩ := append_cons_inj_of_notMem_left (TransferDirection.isLine_debug _)
    (TransferDirection.isLine_debug _) (List.append_cancel_left hhead)
  obtain ⟨htype, hhead⟩ := append_cons_inj_of_notMem_left (TransferType.isLine_debug _)
    (TransferType.isLine_debug _) (List.append_cancel_left hhead)
  have hbracket : ∀ {address : String}, '[' ∉ address.toList → '[' ∉ address.toList ++ [']'] := by
    intro address hnotMem
    rw [List.mem_append, not_or]
    exact ⟨hnotMem, by decide⟩
  obtain ⟨hname, haddresses⟩ := append_cons_inj_of_notMem_right (hbracket haddress)
    (hbracket haddress') (List.append_cancel_left hhead)
  exact ⟨String.toList_injective (List.append_cancel_left hbalance),
    TransferDirection.debug_injective (String.toList_injective hdirection),
    TransferType.debug_injective (String.toList_injective htype), String.toList_injective hname,
    String.toList_injective (List.append_cancel_right haddresses)⟩

/-- A transfer can be read back from its text. Both texts end in the same token name,
whatever is in it, and the numbers before it stand on the last line. -/
theorem transfer_injective {env : FormatExternals} {config : FormatConfig} (henv : env.Lawful)
    {transfer transfer' : TransferKnownAccountEvent}
    (hreadable : (Alert.event (.transfer transfer)).Readable)
    (hreadable' : (Alert.event (.transfer transfer')).Readable) {text : String}
    (h : formatAlert env config (.event (.transfer transfer)) = .ok text)
    (h' : formatAlert env config (.event (.transfer transfer')) = .ok text) :
    transfer = transfer' := by
  obtain ⟨balance, hbalance, htext⟩ := exists_balance h
  obtain ⟨balance', hbalance', htext'⟩ := exists_balance h'
  obtain ⟨number, rfl, hline⟩ := exists_number henv hreadable.1 hbalance
  obtain ⟨number', rfl, hline'⟩ := exists_number henv hreadable'.1 hbalance'
  rw [← String.append_assoc] at htext htext'
  have hnumbers := (String.append_left_inj _).mp (htext.symm.trans htext')
  obtain ⟨hsame, hdirection, htype, hname, haddress⟩ :=
    transferText_injective hline hline' hreadable.2 hreadable'.2 hnumbers
  rw [← hsame] at hbalance'
  have hamount := amount_injective henv hreadable.1 hreadable'.1 hbalance hbalance'
  obtain ⟨direction, transferType, name, address, amount⟩ := transfer
  obtain ⟨direction', transferType', name', address', amount'⟩ := transfer'
  simp only at hdirection htype hname haddress hamount
  rw [hdirection, htype, hname, haddress, hamount]

/-- The text of a transfer starts with its title. -/
theorem toList_transferHead (transfer : TransferKnownAccountEvent) (balance : String) :
    ∃ rest, (transferHead transfer ++ balance).toList =
      AlertKind.transfer.title.toList ++ '\n' :: rest := by
  rw [toList_transfer,
    show "**Balance transfer**\nDirection: ".toList =
      AlertKind.transfer.title.toList ++ '\n' :: "Direction: ".toList from by decide]
  simp only [List.append_assoc, List.cons_append]
  exact ⟨_, rfl⟩

/-- Only transfers are of the kind of a transfer, the one kind that is formatted apart. -/
theorem exists_transfer_of_kind {alert : Alert} (h : alert.kind = .transfer) :
    ∃ transfer, alert = .event (.transfer transfer) := by
  cases alert with
  | event event =>
      cases event with
      | transfer transfer => exact ⟨transfer, rfl⟩
      | _ => cases h
  | _ => cases h

/-- The first line is the title, so alerts with the same text are of the same kind. -/
theorem takeWhile_formatAlert {env : FormatExternals} {config : FormatConfig} {alert : Alert}
    {text : String} (h : formatAlert env config alert = .ok text) :
    text.toList.takeWhile (· ≠ '\n') = alert.kind.title.toList := by
  have htitle := alert.kind.isLine_title
  by_cases htransfer : alert.kind = .transfer
  · obtain ⟨transfer, rfl⟩ := exists_transfer_of_kind htransfer
    obtain ⟨balance, -, rfl⟩ := exists_balance h
    obtain ⟨rest, hrest⟩ := toList_transferHead transfer balance
    rw [hrest]
    exact takeWhile_line htitle rest
  · rw [formatAlert_eq_lines alert htransfer, Except.ok.injEq] at h
    rw [← h, String.toList_intercalate, List.map_cons]
    cases alertLines env config alert with
    | nil =>
        rw [List.map_nil, List.intercalate_singleton, List.takeWhile_eq_self_iff]
        intro c hc
        exact decide_eq_true fun heq => htitle (heq ▸ hc)
    | cons line lines =>
        rw [List.map_cons, List.intercalate_cons_cons, List.append_assoc]
        exact takeWhile_line htitle _

end MdFormat

/-- No two alerts have the same text. The first line of a text is the title of the
alert's kind, and the lines below it determine every field of the alert: the hash and
the number of each block, with all blocks of a reorg, the durations, the slots and
identifiers, and the account and the exact amount of a transfer. The address of a
transfer has no `[` in it, since the name before it may have one. -/
theorem alert_texts_injective (env : FormatExternals) (config : FormatConfig) (henv : env.Lawful)
    (htexts : env.LawfulTexts) (alert alert' : Alert)
    (hreadable : alert.Readable) (hreadable' : alert'.Readable) (text : String)
    (h : MdFormat.formatAlert env config alert = .ok text)
    (h' : MdFormat.formatAlert env config alert' = .ok text) : alert = alert' := by
  have hkind : alert.kind = alert'.kind := by
    refine AlertKind.title_injective (String.toList_injective ?_)
    rw [← MdFormat.takeWhile_formatAlert h, ← MdFormat.takeWhile_formatAlert h']
  by_cases htransfer : alert.kind = .transfer
  · obtain ⟨transfer, rfl⟩ := MdFormat.exists_transfer_of_kind htransfer
    obtain ⟨transfer', rfl⟩ := MdFormat.exists_transfer_of_kind (hkind.symm.trans htransfer)
    rw [MdFormat.transfer_injective henv hreadable hreadable' h h']
  · have hlines : alert.kind.title :: MdFormat.alertLines env config alert =
        alert'.kind.title :: MdFormat.alertLines env config alert' := by
      rw [MdFormat.formatAlert_eq_lines alert htransfer] at h
      rw [MdFormat.formatAlert_eq_lines alert' (hkind ▸ htransfer)] at h'
      refine lines_injective (by simp) (by simp) ?_ ?_
        (Except.ok.inj (h.trans h'.symm))
      · exact List.forall_mem_cons.mpr
          ⟨alert.kind.isLine_title, MdFormat.isLine_alertLines htexts hreadable⟩
      · exact List.forall_mem_cons.mpr
          ⟨alert'.kind.isLine_title, MdFormat.isLine_alertLines htexts hreadable'⟩
    exact MdFormat.alertLines_injective htexts hreadable hreadable' hkind htransfer
      (List.cons.inj hlines).2

/-! ### Texts for concrete runs -/

/-- The hexadecimal digits of a hash, as `hex::encode` writes them. -/
def hexDigits (hash : BlockHash) : List Char :=
  (List.range 64).map fun i => (hash.toNat / 16 ^ (63 - i) % 16).digitChar

/-- Different hexadecimal digits are different characters. -/
theorem digitChar_injective {m n : Nat} (hm : m < 16) (hn : n < 16)
    (h : m.digitChar = n.digitChar) : m = n := by
  interval_cases m <;> interval_cases n <;> first | rfl | exact absurd h (by decide)

/-- A number is determined by its digits. -/
theorem mod_pow_eq_of_digits {b x y : Nat} (n : Nat)
    (h : ∀ k < n, x / b ^ k % b = y / b ^ k % b) : x % b ^ n = y % b ^ n := by
  induction n with
  | zero => rw [pow_zero, Nat.mod_one, Nat.mod_one]
  | succ n ih =>
      rw [Nat.mod_pow_succ, Nat.mod_pow_succ, ih fun k hk => h k (by omega), h n (by omega)]

/-- The hexadecimal digits determine the hash: there are `64` of them, as many as its
`256` bits need. -/
theorem hexDigits_injective {hash hash' : BlockHash} (h : hexDigits hash = hexDigits hash') :
    hash = hash' := by
  have hdigits : ∀ k < 64, hash.toNat / 16 ^ k % 16 = hash'.toNat / 16 ^ k % 16 := by
    intro k hk
    have hchar := List.map_inj_left.mp h (63 - k) (List.mem_range.mpr (by omega))
    rw [show 63 - (63 - k) = k by omega] at hchar
    exact digitChar_injective (Nat.mod_lt _ (by decide)) (Nat.mod_lt _ (by decide)) hchar
  have hmod := mod_pow_eq_of_digits 64 hdigits
  have hlt : hash.toNat < 16 ^ 64 := lt_of_lt_of_eq hash.isLt (by norm_num)
  have hlt' : hash'.toNat < 16 ^ 64 := lt_of_lt_of_eq hash'.isLt (by norm_num)
  rw [Nat.mod_eq_of_lt hlt, Nat.mod_eq_of_lt hlt'] at hmod
  exact BitVec.eq_of_toNat_eq hmod

/-- A line end is no hexadecimal digit. -/
theorem newline_notMem_hexDigits (hash : BlockHash) : '\n' ∉ hexDigits hash := by
  intro hmem
  obtain ⟨i, -, hi⟩ := List.mem_map.mp hmem
  have hlt : hash.toNat / 16 ^ (63 - i) % 16 < 16 := Nat.mod_lt _ (by decide)
  generalize hash.toNat / 16 ^ (63 - i) % 16 = n at hi hlt
  interval_cases n <;> exact absurd hi (by decide)

/-- A byte of an url: letters, digits and `-_.~` stay, and others become `%XX`. -/
def encodeByte (byte : UInt8) : List Char :=
  let c := Char.ofNat byte.toNat
  if c.isAlphanum && byte < 128 || c ∈ ['-', '_', '.', '~'] then [c]
  else ['%', (byte.toNat / 16).digitChar.toUpper, (byte.toNat % 16).digitChar.toUpper]

/-- Whole seconds below a minute as `humantime` writes them. Other durations are
written in nanoseconds here. -/
def secondsText (nanos : Nat) : String :=
  if nanos % 10 ^ 9 = 0 ∧ nanos < 60 * 10 ^ 9 then toString (nanos / 10 ^ 9) ++ "s"
  else toString nanos ++ "ns"

/-- A formatter with concrete texts of times, hashes and urls. -/
def plainFormat : FormatExternals :=
  { exactFormat with
    displayHash := fun hash => String.ofList
      ('0' :: 'x' :: (hexDigits hash).take 4 ++ '…' :: (hexDigits hash).drop 60)
    formatDuration := secondsText
    hexEncode := fun hash => String.ofList (hexDigits hash)
    urlEncode := fun text => String.ofList (text.toUTF8.toList.flatMap encodeByte) }

/-- The text of a duration determines it. The unit tells which of the two forms it is,
and the digits before the unit are those of one number. -/
theorem secondsText_injective {nanos nanos' : Nat} (h : secondsText nanos = secondsText nanos') :
    nanos = nanos' := by
  -- A number before `s` is not one before `ns`.
  have hunit : ∀ m n : Nat, toString m ++ "s" ≠ toString n ++ "ns" := by
    intro m n heq
    have hchars := congrArg String.toList heq
    rw [String.toList_append, String.toList_append,
      show "ns".toList = ['n'] ++ "s".toList from rfl, ← List.append_assoc] at hchars
    have hmem : 'n' ∈ (toString m).toList := by
      rw [List.append_cancel_right hchars]
      simp
    exact notMem_digits rfl m hmem
  unfold secondsText at h
  split at h <;> split at h
  · rename_i hsecs hsecs'
    have hsame := digits_injective ((String.append_left_inj _).mp h)
    omega
  · exact absurd h (hunit _ _)
  · exact absurd h.symm (hunit _ _)
  · exact digits_injective ((String.append_left_inj _).mp h)

/-- A duration is written without a line end. -/
theorem isLine_secondsText (nanos : Nat) : IsLine (secondsText nanos) := by
  unfold secondsText
  split
  · exact isLine_append_iff.mpr ⟨isLine_digits _, by decide⟩
  · exact isLine_append_iff.mpr ⟨isLine_digits _, by decide⟩

/-- The concrete formatter satisfies what the model assumes about amounts. It takes them
from `exactFormat`. -/
theorem plainFormat_lawful : plainFormat.Lawful :=
  ⟨exactFormat_lawful.1, exactFormat_lawful.2, exactFormat_lawful.3, exactFormat_lawful.4⟩

/-- No byte of an encoded url is a line end, since a line end becomes `%0A`. -/
theorem newline_notMem_encodeByte : ∀ byte : UInt8, '\n' ∉ encodeByte byte := by
  decide +kernel

/-- The concrete formatter satisfies what is assumed about the texts, so the assumptions
do not contradict each other and the main result applies to it. -/
theorem plainFormat_lawfulTexts : plainFormat.LawfulTexts where
  isLine_displayHash hash := by
    show '\n' ∉ (String.ofList _).toList
    rw [String.toList_ofList]
    have hhex := newline_notMem_hexDigits hash
    simp only [List.cons_append, List.mem_cons, List.mem_append, not_or]
    exact ⟨by decide, by decide, fun h => hhex (List.mem_of_mem_take h), by decide,
      fun h => hhex (List.mem_of_mem_drop h)⟩
  isLine_hexEncode hash := by
    show '\n' ∉ (String.ofList _).toList
    rw [String.toList_ofList]
    exact newline_notMem_hexDigits hash
  length_hexEncode hash := by
    show (String.ofList _).toList.length = 64
    rw [String.toList_ofList, hexDigits, List.length_map, List.length_range]
  hexEncode_injective hash hash' h := hexDigits_injective (String.ofList_injective h)
  isLine_urlEncode text := by
    show '\n' ∉ (String.ofList _).toList
    rw [String.toList_ofList, List.mem_flatMap]
    rintro ⟨byte, -, hbyte⟩
    exact newline_notMem_encodeByte byte hbyte
  isLine_formatDuration duration _ := isLine_secondsText duration
  formatDuration_injective duration _ duration' _ h := secondsText_injective h

/-- A token with 18 decimals. -/
def plainConfig : FormatConfig := { rpcUrl := "wss", tokenName := "AI3", tokenDecimals := 18 }

/-- The only alert with the text of a stall of 30 seconds after slot 5. -/
theorem alert_texts_injective_stall :
    ∃ text, MdFormat.formatAlert plainFormat plainConfig
        (.timekeeperStall { lastSlot := 5, duration := Duration.fromSecs 30 }) = .ok text ∧
      ∀ alert : Alert, alert.Readable →
        MdFormat.formatAlert plainFormat plainConfig alert = .ok text →
        .timekeeperStall { lastSlot := 5, duration := Duration.fromSecs 30 } = alert :=
  have hreadable :
      (Alert.timekeeperStall { lastSlot := 5, duration := Duration.fromSecs 30 }).Readable :=
    show Duration.fromSecs 30 ≤ Duration.MAX by decide
  ⟨_, rfl, fun alert hreadable' h => alert_texts_injective plainFormat plainConfig
    plainFormat_lawful plainFormat_lawfulTexts _ alert hreadable hreadable' _ rfl h⟩

end ChainAlerter
