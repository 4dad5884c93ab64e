import ChainAlerter.Library.EventRun
import ChainAlerter.Model.Slack

/-!
# `ChainAlerter.Proofs.Amounts`: the amounts of transfers

The amount of a transfer is a `u128`, and so is the power of ten that it is divided by.
A `Decimal` has 96 bits and 28 digits after the point. So an amount is formatted
exactly when it and the power fit into a `Decimal`, and then the quotient does as well:
the amount is its mantissa, and the token's decimals are its scale. In all other cases
a conversion panics, or the power overflows before it is converted.

A panic of the formatter ends the Slack task. Up to there it posts what it receives, in
order (`SlackTask.run_handles`), so it panics exactly when a transfer does not fit
(`SlackTask.panicked_iff`).
-/

set_option autoImplicit false

namespace ChainAlerter

open ChainAlerter.Library

/-! ### The powers of ten -/

/-- A power of ten fits the mantissa of a `Decimal` up to the exponent 28. -/
theorem ten_pow_lt_decimal_iff {d : Nat} : 10 ^ d < 2 ^ 96 ↔ d ≤ 28 := by
  constructor
  · intro h
    by_contra hd
    have hle : 10 ^ 29 ≤ 10 ^ d := Nat.pow_le_pow_right (by decide) (by omega)
    have hlarge : 2 ^ 96 ≤ 10 ^ 29 := by decide
    omega
  · intro hd
    have hle : 10 ^ d ≤ 10 ^ 28 := Nat.pow_le_pow_right (by decide) hd
    have hsmall : 10 ^ 28 < 2 ^ 96 := by decide
    omega

/-- A power that fits a `u128` is computed. -/
theorem u128Pow_of_lt {base exp : Nat} (h : base ^ exp < 2 ^ 128) :
    u128Pow base exp = some (base ^ exp) :=
  if_pos h

/-- A power that does not fit overflows, and the builds check that. -/
theorem u128Pow_of_le {base exp : Nat} (h : 2 ^ 128 ≤ base ^ exp) : u128Pow base exp = none :=
  if_neg (Nat.not_lt.mpr h)

/-! ### Formatting an amount -/

/-- A value that is there is handed on. -/
@[simp] theorem orPanic_some_bind {α β : Type} (reason : FormatPanic) (a : α)
    (f : α → Except FormatPanic β) : (orPanic reason (some a) >>= f) = f a := rfl

/-- A value that is not there is a panic, and nothing after it runs. -/
@[simp] theorem orPanic_none_bind {α β : Type} (reason : FormatPanic)
    (f : α → Except FormatPanic β) : (orPanic reason none >>= f) = .error reason := rfl

namespace MdFormat

variable {env : FormatExternals} {config : FormatConfig} {amount : Nat}

/-- An amount that fits is printed as it is. Both conversions succeed, and the quotient
by the power of ten is a `Decimal`, so the division is exact. -/
theorem formatBalance_of_fits (henv : env.Lawful) (hamount : amount < 2 ^ 96)
    (hdecimals : config.tokenDecimals.toNat ≤ 28) :
    ∃ q : Decimal, q.value = amount / 10 ^ config.tokenDecimals.toNat ∧
      formatBalance env config amount = .ok (env.displayDecimal q ++ " " ++ config.tokenName) := by
  have hpower := ten_pow_lt_decimal_iff.mpr hdecimals
  obtain ⟨x, hx, hxvalue⟩ := henv.decimalFromU128_of_lt amount hamount
  obtain ⟨y, hy, hyvalue⟩ := henv.decimalFromU128_of_lt _ hpower
  -- The quotient has the amount as its mantissa.
  let exact : Decimal :=
    { mantissa := amount, scale := config.tokenDecimals.toNat
      mantissa_lt := hamount, scale_le := hdecimals }
  have hexact : exact.value = x.value / y.value := by
    rw [hxvalue, hyvalue, Nat.cast_pow]
    rfl
  have hne : y.value ≠ 0 := by
    rw [hyvalue]
    exact Nat.cast_ne_zero.mpr (Nat.pow_pos (by decide)).ne'
  obtain ⟨q, hq, hqvalue⟩ := henv.decimalDiv_of_eq x y exact hne hexact
  refine ⟨q, hqvalue, ?_⟩
  have hpow : u128Pow 10 config.tokenDecimals.toNat = some (10 ^ config.tokenDecimals.toNat) :=
    u128Pow_of_lt (by omega)
  rw [formatBalance, hx, orPanic_some_bind, hpow, orPanic_some_bind, hy, orPanic_some_bind, hq,
    orPanic_some_bind]
  rfl

/-- An amount of more than 96 bits is not converted. -/
theorem formatBalance_of_large_amount (henv : env.Lawful) (hamount : amount < 2 ^ 128)
    (hlarge : 2 ^ 96 ≤ amount) : formatBalance env config amount = .error .conversion := by
  rw [formatBalance, henv.decimalFromU128_of_le amount hamount hlarge, orPanic_none_bind]

/-- A power of more than 96 bits is not converted, one of more than 128 bits is not
computed. Which of the two it is tells the panic. -/
theorem formatBalance_of_large_power (henv : env.Lawful) (hamount : amount < 2 ^ 96)
    (hlarge : 2 ^ 96 ≤ 10 ^ config.tokenDecimals.toNat) :
    formatBalance env config amount =
      .error (if 10 ^ config.tokenDecimals.toNat < 2 ^ 128 then .conversion else .overflow) := by
  obtain ⟨x, hx, -⟩ := henv.decimalFromU128_of_lt amount hamount
  by_cases hpower : 10 ^ config.tokenDecimals.toNat < 2 ^ 128
  · have hnone := henv.decimalFromU128_of_le _ hpower hlarge
    rw [formatBalance, hx, orPanic_some_bind, u128Pow_of_lt hpower, orPanic_some_bind, hnone,
      orPanic_none_bind, if_pos hpower]
  · rw [formatBalance, hx, orPanic_some_bind, u128Pow_of_le (Nat.not_lt.mp hpower),
      orPanic_none_bind, if_neg hpower]

/-- The amount and the power of ten both fit into a `Decimal`. -/
def Fits (config : FormatConfig) (amount : Nat) : Prop :=
  amount < 2 ^ 96 ∧ config.tokenDecimals.toNat ≤ 28

/-- Any other amount panics, and never in the division: the divisor is a power of ten,
and a quotient of two numbers that fit is not too large. -/
theorem formatBalance_of_not_fits (henv : env.Lawful) (hamount : amount < 2 ^ 128)
    (hfits : ¬ Fits config amount) :
    (formatBalance env config amount = .error .overflow ∧
      2 ^ 128 ≤ 10 ^ config.tokenDecimals.toNat) ∨
    (formatBalance env config amount = .error .conversion ∧
      (2 ^ 96 ≤ amount ∨ 2 ^ 96 ≤ 10 ^ config.tokenDecimals.toNat)) := by
  by_cases hlarge : 2 ^ 96 ≤ amount
  · exact Or.inr ⟨formatBalance_of_large_amount henv hamount hlarge, Or.inl hlarge⟩
  · have hsmall := Nat.not_le.mp hlarge
    have hpower : 2 ^ 96 ≤ 10 ^ config.tokenDecimals.toNat := by
      by_contra hlt
      exact hfits ⟨hsmall, ten_pow_lt_decimal_iff.mp (Nat.not_le.mp hlt)⟩
    have hpanic := formatBalance_of_large_power henv hsmall hpower
    by_cases hu128 : 10 ^ config.tokenDecimals.toNat < 2 ^ 128
    · rw [if_pos hu128] at hpanic
      exact Or.inr ⟨hpanic, Or.inr hpower⟩
    · rw [if_neg hu128] at hpanic
      exact Or.inl ⟨hpanic, Nat.not_lt.mp hu128⟩

/-- An amount is printed exactly when it fits: the amount is below 2^96 and the decimals
are at most 28. Otherwise one of the conversions panics. -/
theorem formatBalance_eq_ok_iff (henv : env.Lawful) (hamount : amount < 2 ^ 128) :
    (∃ text, formatBalance env config amount = .ok text) ↔ Fits config amount := by
  constructor
  · rintro ⟨text, htext⟩
    by_contra hfits
    rcases formatBalance_of_not_fits henv hamount hfits with ⟨hpanic, -⟩ | ⟨hpanic, -⟩
    · rw [hpanic] at htext
      cases htext
    · rw [hpanic] at htext
      cases htext
  · rintro ⟨hsmall, hdecimals⟩
    obtain ⟨q, -, htext⟩ := formatBalance_of_fits henv hsmall hdecimals
    exact ⟨_, htext⟩

/-- The text is the number and the token, with nothing rounded. -/
def Prints (config : FormatConfig) (amount : Nat) (text : String) : Prop :=
  ∃ number : String, text = number ++ " " ++ config.tokenName ∧
    decimalValue number.toList = some ((amount : ℚ) / 10 ^ config.tokenDecimals.toNat)

/-- What is printed is exact. The number before the token name has the value of the
amount in the unit of the token. -/
theorem prints_of_formatBalance (henv : env.Lawful) (hamount : amount < 2 ^ 128) {text : String}
    (htext : formatBalance env config amount = .ok text) : Prints config amount text := by
  obtain ⟨hsmall, hdecimals⟩ := (formatBalance_eq_ok_iff henv hamount).mp ⟨text, htext⟩
  obtain ⟨q, hq, hprinted⟩ := formatBalance_of_fits henv hsmall hdecimals
  rw [hprinted, Except.ok.injEq] at htext
  refine ⟨env.displayDecimal q, htext.symm, ?_⟩
  rw [henv.decimalValue_displayDecimal q, hq]

/-- A text prints one amount. The number before the token is the one that the text
stands for, and the decimals of the token are fixed. -/
theorem Prints.eq {other : Nat} {text : String} (h : Prints config amount text)
    (h' : Prints config other text) : other = amount := by
  obtain ⟨number, htext, hvalue⟩ := h
  obtain ⟨number', htext', hvalue'⟩ := h'
  -- The token is the same, so the numbers are.
  have hnumber : number' = number := by
    rw [htext'] at htext
    have hlist := congrArg String.toList htext
    simp only [String.toList_append] at hlist
    exact String.toList_inj.mp (List.append_cancel_right (List.append_cancel_right hlist))
  rw [hnumber, hvalue, Option.some.injEq] at hvalue'
  have hpow : (10 : ℚ) ^ config.tokenDecimals.toNat ≠ 0 := pow_ne_zero _ (by decide)
  exact Nat.cast_injective ((div_left_inj' hpow).mp hvalue').symm

/-- The text of a transfer ends in its amount. -/
theorem formatAlert_transfer (transfer : TransferKnownAccountEvent) :
    formatAlert env config (.event (.transfer transfer)) =
      (formatBalance env config transfer.amount).map (transferHead transfer ++ ·) := by
  show formatTransfer env config transfer = _
  rw [formatTransfer]
  cases formatBalance env config transfer.amount <;> rfl

end MdFormat

/-! ### The Slack task -/

namespace SlackTask

variable {env : FormatExternals} {config : FormatConfig} {slack : SlackAlerter}
  {task task' : SlackTask}

/-- A task that waits takes an alert and works on it. -/
theorem step_recv (hwaiting : task.phase = .waiting) (alert : Alert) :
    task.step env config slack (.recv (some alert)) =
      some (task.recvAlert env config slack alert) := by
  obtain ⟨phase, requests⟩ := task
  cases hwaiting
  rfl

/-- The alert of a transfer ends the task when its amount cannot be formatted. -/
theorem step_transfer_of_error (hwaiting : task.phase = .waiting)
    {transfer : TransferKnownAccountEvent} {reason : FormatPanic}
    (hpanic : MdFormat.formatBalance env config transfer.amount = .error reason) :
    task.step env config slack (.recv (some (.event (.transfer transfer)))) =
      some { task with phase := .panicked } := by
  rw [step_recv hwaiting, recvAlert, MdFormat.formatAlert_transfer, hpanic]
  rfl

/-- A transfer whose amount is printed is posted. -/
theorem step_transfer_of_ok (hwaiting : task.phase = .waiting)
    {transfer : TransferKnownAccountEvent} {text : String}
    (htext : MdFormat.formatBalance env config transfer.amount = .ok text) :
    task.step env config slack (.recv (some (.event (.transfer transfer)))) =
      some { phase := .posting
             requests := task.requests ++
               [slack.request (MdFormat.transferHead transfer ++ text)] } := by
  rw [step_recv hwaiting, recvAlert, MdFormat.formatAlert_transfer, htext]
  rfl

/-- The alerts that the task has received. -/
def received (events : List SlackEvent) : List Alert :=
  events.filterMap fun event =>
    match event with
    | .recv alert => alert
    | _ => none

/-- What the task has done with the alerts that it received: all of them are posted, in
their order, except for a last one that made it panic. -/
def Handles (env : FormatExternals) (config : FormatConfig) (slack : SlackAlerter)
    (alerts : List Alert) (task : SlackTask) : Prop :=
  ∃ (posted : List Alert) (texts : List String),
    posted.map (MdFormat.formatAlert env config) = texts.map .ok ∧
    task.requests = texts.map slack.request ∧
    ((task.phase ≠ .panicked ∧ alerts = posted) ∨
      (task.phase = .panicked ∧ ∃ alert reason, alerts = posted ++ [alert] ∧
        MdFormat.formatAlert env config alert = .error reason))

/-- The alerts received so far grow by that of the last event. -/
theorem received_append_singleton (events : List SlackEvent) (event : SlackEvent) :
    received (events ++ [event]) = received events ++ received [event] :=
  List.filterMap_append

/-- A received alert is posted, or makes the task panic. The alerts before it have been
posted, so the requests stay those of the alerts, in their order. -/
theorem Handles.recvAlert {alerts : List Alert} (hphase : task.phase ≠ .panicked)
    (h : Handles env config slack alerts task) (alert : Alert) :
    Handles env config slack (alerts ++ [alert]) (task.recvAlert env config slack alert) := by
  obtain ⟨posted, texts, hposted, hrequests, ⟨-, rfl⟩ | ⟨hpanicked, -⟩⟩ := h
  · cases hformat : MdFormat.formatAlert env config alert with
    | error reason =>
        rw [SlackTask.recvAlert, hformat]
        exact ⟨alerts, texts, hposted, hrequests, Or.inr ⟨rfl, alert, reason, rfl, hformat⟩⟩
    | ok text =>
        rw [SlackTask.recvAlert, hformat]
        refine ⟨alerts ++ [alert], texts ++ [text], ?_, ?_, Or.inl ⟨by simp, rfl⟩⟩
        · simp [hposted, hformat]
        · simp [hrequests]
  · exact absurd hpanicked hphase

/-- A step to another phase, which receives nothing and posts nothing. -/
theorem Handles.setPhase {alerts : List Alert} {phase : SlackPhase}
    (hphase : task.phase ≠ .panicked) (hphase' : phase ≠ .panicked)
    (h : Handles env config slack alerts task) :
    Handles env config slack (alerts ++ []) { task with phase := phase } := by
  obtain ⟨posted, texts, hposted, hrequests, ⟨-, rfl⟩ | ⟨hpanicked, -⟩⟩ := h
  · rw [List.append_nil]
    exact ⟨alerts, texts, hposted, hrequests, Or.inl ⟨hphase', rfl⟩⟩
  · exact absurd hpanicked hphase

/-- One step of the task keeps what it has to do with the alerts. A received alert
is formatted and posted, a failed post is only logged, and the others change
neither side. -/
theorem Handles.step {alerts : List Alert} {event : SlackEvent}
    (h : Handles env config slack alerts task)
    (hstep : task.step env config slack event = some task') :
    Handles env config slack (alerts ++ received [event]) task' := by
  obtain ⟨phase, requests⟩ := task
  cases phase with
  | opening =>
      cases event with
      | session result =>
          cases result with
          | ok => cases hstep; exact h.setPhase (by simp) (by simp)
          | error err => cases hstep; exact h.setPhase (by simp) (by simp)
      | recv alert => cases hstep
      | posted result => cases hstep
  | waiting =>
      cases event with
      | session result => cases hstep
      | recv alert =>
          cases alert with
          | none => cases hstep; exact h.setPhase (by simp) (by simp)
          | some alert => cases hstep; exact h.recvAlert (by simp) alert
      | posted result => cases hstep
  | posting =>
      cases event with
      | session result => cases hstep
      | recv alert => cases hstep
      | posted result => cases hstep; exact h.setPhase (by simp) (by simp)
  | returned err => cases hstep
  | panicked => cases hstep

/-- In every run the received alerts are posted in their order, up to one that panics. -/
theorem run_handles (env : FormatExternals) (config : FormatConfig) (slack : SlackAlerter) :
    ∀ (events : List SlackEvent) (task : SlackTask),
      run (step env config slack) init events = some task →
        Handles env config slack (received events) task := by
  refine run_history ⟨[], [], rfl, rfl, Or.inl ⟨by simp [init], rfl⟩⟩
    fun events task event task' _ h hstep => ?_
  rw [received_append_singleton]
  exact h.step hstep

/-- Only a transfer makes the formatter panic. All other alerts are written without
arithmetic, and a transfer panics with its amount. -/
theorem exists_transfer_of_error {alert : Alert} {reason : FormatPanic}
    (h : MdFormat.formatAlert env config alert = .error reason) :
    ∃ transfer, alert = .event (.transfer transfer) ∧
      MdFormat.formatBalance env config transfer.amount = .error reason := by
  cases alert with
  | event event =>
      cases event with
      | transfer transfer =>
          refine ⟨transfer, rfl, ?_⟩
          rw [MdFormat.formatAlert_transfer] at h
          cases hbalance : MdFormat.formatBalance env config transfer.amount with
          | ok text =>
              rw [hbalance] at h
              cases h
          | error reason' =>
              rw [hbalance] at h
              cases h
              rfl
      | fraudProofProcessed domainId number => cases number <;> cases h
      | _ => cases h
  | _ => cases h

/-- The task panics exactly when it receives a transfer whose amount does not fit. By
induction on the run, where a failed post is no panic and a panic is for good. -/
theorem panicked_iff (henv : env.Lawful) {events : List SlackEvent}
    (hamounts : ∀ transfer, .event (.transfer transfer) ∈ received events →
      transfer.amount < 2 ^ 128)
    (hrun : run (step env config slack) init events = some task) :
    task.phase = .panicked ↔ ∃ transfer, .event (.transfer transfer) ∈ received events ∧
      ¬ MdFormat.Fits config transfer.amount := by
  obtain ⟨posted, texts, hposted, -, hphase⟩ := run_handles env config slack events task hrun
  constructor
  · intro hpanicked
    rcases hphase with ⟨hrunning, -⟩ | ⟨-, alert, reason, halerts, hformat⟩
    · exact absurd hpanicked hrunning
    · obtain ⟨transfer, rfl, hbalance⟩ := exists_transfer_of_error hformat
      have hmem : Alert.event (.transfer transfer) ∈ received events := by
        rw [halerts]
        simp
      refine ⟨transfer, hmem, fun hfits => ?_⟩
      obtain ⟨text, htext⟩ :=
        (MdFormat.formatBalance_eq_ok_iff henv (hamounts transfer hmem)).mpr hfits
      rw [hbalance] at htext
      cases htext
  · rintro ⟨transfer, hmem, hfits⟩
    rcases hphase with ⟨-, hposts⟩ | ⟨hpanicked, -⟩
    · -- All alerts were formatted, also this one.
      have hformat := List.mem_map_of_mem (f := MdFormat.formatAlert env config) (hposts ▸ hmem)
      rw [hposted, List.mem_map] at hformat
      obtain ⟨text, -, htext⟩ := hformat
      rw [MdFormat.formatAlert_transfer] at htext
      cases hbalance : MdFormat.formatBalance env config transfer.amount with
      | ok balance =>
          exact absurd ((MdFormat.formatBalance_eq_ok_iff henv (hamounts transfer hmem)).mp
            ⟨balance, hbalance⟩) hfits
      | error reason =>
          rw [hbalance] at htext
          cases htext
    · exact hpanicked

end SlackTask

/-- Amounts are printed exactly or not at all. For every `u128` amount and every number
of token decimals, the formatter returns if and only if the amount is below `2 ^ 96`
and there are at most 28 decimals. Then the number it prints is the amount divided by
the power of ten, no other amount has the same text, and the Slack task posts it. In
all other cases the power of ten overflows or a conversion to `Decimal` fails, and the
Slack task panics. -/
theorem amounts_exact_or_panic (env : FormatExternals) (henv : env.Lawful) (config : FormatConfig)
    (slack : SlackAlerter) (amount : Nat) (hamount : amount < 2 ^ 128) :
    ((∃ text, MdFormat.formatBalance env config amount = .ok text) ↔
      amount < 2 ^ 96 ∧ config.tokenDecimals.toNat ≤ 28) ∧
    (∀ text, MdFormat.formatBalance env config amount = .ok text →
      MdFormat.Prints config amount text ∧
      (∀ other < 2 ^ 128, MdFormat.formatBalance env config other = .ok text → other = amount) ∧
      ∀ task transfer, task.phase = .waiting → transfer.amount = amount →
        SlackTask.step env config slack task (.recv (some (.event (.transfer transfer)))) =
          some { phase := .posting
                 requests := task.requests ++
                   [slack.request (MdFormat.transferHead transfer ++ text)] }) ∧
    (¬ (amount < 2 ^ 96 ∧ config.tokenDecimals.toNat ≤ 28) →
      ((MdFormat.formatBalance env config amount = .error .overflow ∧
          2 ^ 128 ≤ 10 ^ config.tokenDecimals.toNat) ∨
        (MdFormat.formatBalance env config amount = .error .conversion ∧
          (2 ^ 96 ≤ amount ∨ 2 ^ 96 ≤ 10 ^ config.tokenDecimals.toNat))) ∧
      ∀ task transfer, task.phase = .waiting → transfer.amount = amount →
        SlackTask.step env config slack task (.recv (some (.event (.transfer transfer)))) =
          some { task with phase := .panicked }) := by
  refine ⟨MdFormat.formatBalance_eq_ok_iff henv hamount, fun text htext => ?_, fun hfits => ?_⟩
  · have hprints := MdFormat.prints_of_formatBalance henv hamount htext
    refine ⟨hprints, fun other hother hsame => ?_, ?_⟩
    · exact hprints.eq (MdFormat.prints_of_formatBalance henv hother hsame)
    · rintro task transfer hwaiting rfl
      exact SlackTask.step_transfer_of_ok hwaiting htext
  · have hpanic := MdFormat.formatBalance_of_not_fits henv hamount hfits
    refine ⟨hpanic, ?_⟩
    rintro task transfer hwaiting rfl
    rcases hpanic with ⟨hpanic, -⟩ | ⟨hpanic, -⟩
    · exact SlackTask.step_transfer_of_error hwaiting hpanic
    · exact SlackTask.step_transfer_of_error hwaiting hpanic

/-! ### An exact decimal -/

/-- `num / den` with `scale` digits after the point, if it has no more of them. -/
def Decimal.ofScale (num den scale : Nat) : Option Decimal :=
  if h : (scale ≤ 28 ∧ num * 10 ^ scale / den < 2 ^ 96) ∧ den ∣ num * 10 ^ scale then
    some { mantissa := num * 10 ^ scale / den, scale := scale
           mantissa_lt := h.1.2, scale_le := h.1.1 }
  else none

/-- The quotient with the fewest digits after the point. A quotient that is no
`Decimal`, which the real division rounds, is left out. -/
def Decimal.exactDiv (x y : Decimal) : Option Decimal :=
  if y.mantissa = 0 then none
  else (List.range 29).findSome?
    (Decimal.ofScale (x.mantissa * 10 ^ y.scale) (y.mantissa * 10 ^ x.scale))

/-- Decimals with exact operations. Times and hashes have no text here. -/
def exactFormat : FormatExternals :=
  { decimalFromU128 := fun n =>
      if h : n < 2 ^ 96 then
        some { mantissa := n, scale := 0, mantissa_lt := h, scale_le := Nat.zero_le _ }
      else none
    decimalDiv := Decimal.exactDiv
    displayDecimal := fun x => String.ofList (decimalDigits x.mantissa x.scale)
    displayHash := fun _ => ""
    formatDuration := fun _ => ""
    hexEncode := fun _ => ""
    urlEncode := fun _ => "" }

/-- A decimal that was found has the value of the quotient, because the division left
no remainder. -/
theorem Decimal.value_of_ofScale {num den scale : Nat} {q : Decimal} (hden : den ≠ 0)
    (h : Decimal.ofScale num den scale = some q) : q.value = (num : ℚ) / den := by
  unfold Decimal.ofScale at h
  split at h
  · rename_i hexact
    cases h
    obtain ⟨k, hk⟩ := hexact.2
    have hscale : (10 : ℚ) ^ scale ≠ 0 := pow_ne_zero _ (by decide)
    have hden' : (den : ℚ) ≠ 0 := Nat.cast_ne_zero.mpr hden
    have hk' : (num : ℚ) * 10 ^ scale = den * k := by exact_mod_cast hk
    rw [Decimal.value]
    simp only [hk, Nat.mul_div_cancel_left k (Nat.pos_of_ne_zero hden)]
    rw [div_eq_div_iff hscale hden', hk']
    ring
  · cases h

/-- A quotient that is a `Decimal` is found. The search goes over the scales, and at the
scale of the quotient the mantissas divide without a remainder. -/
theorem Decimal.exactDiv_of_eq (x y q : Decimal) (hy : y.value ≠ 0)
    (hq : q.value = x.value / y.value) :
    ∃ q', Decimal.exactDiv x y = some q' ∧ q'.value = q.value := by
  have hmantissa : y.mantissa ≠ 0 := by
    intro hzero
    exact hy (by simp [Decimal.value, hzero])
  rw [Decimal.exactDiv, if_neg hmantissa]
  have hratio : x.value / y.value =
      ((x.mantissa * 10 ^ y.scale : Nat) : ℚ) / ((y.mantissa * 10 ^ x.scale : Nat) : ℚ) := by
    have hx : (10 : ℚ) ^ x.scale ≠ 0 := pow_ne_zero _ (by decide)
    have hm : (y.mantissa : ℚ) ≠ 0 := Nat.cast_ne_zero.mpr hmantissa
    push_cast
    rw [Decimal.value, Decimal.value]
    field_simp
  have hden : y.mantissa * 10 ^ x.scale ≠ 0 :=
    Nat.mul_ne_zero hmantissa (Nat.pow_pos (by decide)).ne'
  rw [hratio] at hq
  -- From here only the fraction matters, not where it comes from.
  generalize x.mantissa * 10 ^ y.scale = num at hq
  generalize y.mantissa * 10 ^ x.scale = den at hq hden
  -- At the scale of `q` the fraction is the mantissa of `q`.
  have hexact : num * 10 ^ q.scale = den * q.mantissa := by
    have hscale : (10 : ℚ) ^ q.scale ≠ 0 := pow_ne_zero _ (by decide)
    have hden' : (den : ℚ) ≠ 0 := Nat.cast_ne_zero.mpr hden
    rw [Decimal.value, div_eq_div_iff hscale hden'] at hq
    have hnat : q.mantissa * den = num * 10 ^ q.scale := by exact_mod_cast hq
    rw [← hnat, Nat.mul_comm]
  have hfound : Decimal.ofScale num den q.scale ≠ none := by
    have hdiv : num * 10 ^ q.scale / den = q.mantissa := by
      rw [hexact, Nat.mul_div_cancel_left _ (Nat.pos_of_ne_zero hden)]
    rw [Decimal.ofScale, dif_pos ⟨⟨q.scale_le, hdiv ▸ q.mantissa_lt⟩, q.mantissa, hexact⟩]
    simp
  cases hsome : (List.range 29).findSome? (Decimal.ofScale num den) with
  | none =>
      have hrange : q.scale ∈ List.range 29 := List.mem_range.mpr (Nat.lt_succ_of_le q.scale_le)
      exact absurd (List.findSome?_eq_none_iff.mp hsome q.scale hrange) hfound
  | some q' =>
      obtain ⟨scale, -, hscale⟩ := List.exists_of_findSome?_eq_some hsome
      exact ⟨q', rfl, by rw [Decimal.value_of_ofScale hden hscale, hq]⟩

/-- The exact decimals meet what is assumed of `rust_decimal`, so the results about
amounts have an instance. -/
theorem exactFormat_lawful : exactFormat.Lawful where
  decimalFromU128_of_lt n hn := ⟨_, dif_pos hn, by simp [Decimal.value]⟩
  decimalFromU128_of_le n _ hn := dif_neg (Nat.not_lt.mpr hn)
  decimalDiv_of_eq := Decimal.exactDiv_of_eq
  decimalValue_displayDecimal x := by
    show decimalValue (String.ofList (decimalDigits x.mantissa x.scale)).toList = _
    rw [String.toList_ofList, decimalValue_decimalDigits]
    rfl

/-- The largest amount that fits, with the most decimals. -/
theorem amounts_exact_or_panic_max :
    exactFormat.Lawful ∧
    MdFormat.formatBalance exactFormat
        { rpcUrl := "", tokenName := "AI3", tokenDecimals := 28 } (2 ^ 96 - 1) =
      .ok "7.9228162514264337593543950335 AI3" ∧
    MdFormat.Prints { rpcUrl := "", tokenName := "AI3", tokenDecimals := 28 } (2 ^ 96 - 1)
      "7.9228162514264337593543950335 AI3" ∧
    MdFormat.formatBalance exactFormat
        { rpcUrl := "", tokenName := "AI3", tokenDecimals := 28 } (2 ^ 96) = .error .conversion := by
  have hmax : MdFormat.formatBalance exactFormat
      { rpcUrl := "", tokenName := "AI3", tokenDecimals := 28 } (2 ^ 96 - 1) =
        .ok "7.9228162514264337593543950335 AI3" := by
    rfl
  have hexact := amounts_exact_or_panic exactFormat exactFormat_lawful
    { rpcUrl := "", tokenName := "AI3", tokenDecimals := 28 }
    (SlackAlerter.new "bot" ":robot_face:" "alerts") (2 ^ 96 - 1) (by decide)
  exact ⟨exactFormat_lawful, hmax, (hexact.2.1 _ hmax).1, rfl⟩

end ChainAlerter
