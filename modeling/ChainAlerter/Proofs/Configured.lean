import ChainAlerter.Proofs.PostedReorgs
import ChainAlerter.Proofs.Supervision

/-!
# `ChainAlerter.Proofs.Configured`: what `main` has made sure of before it posts

`main` asks the node, reads two files, and spawns its tasks with what it got. `Backed`
carries this through every run from the start: what a phase of `main` holds comes from
answers among the events of the run. Its step lemma is `Backed.step`.

`posts_follow_config` is the result on the posts. They are made with a secret from a
private file, to the configured channel and under the configured name. The amounts are
those of the node's token up to the width of a field: the decimals that the node reports
are cut to eight bits.
-/

set_option autoImplicit false

namespace ChainAlerter

open ChainAlerter.Library

namespace Main

variable {capacity : Nat} {externals : MainExternals} {config : Config} {m m' : Main capacity}
  {events : List MainEvent}

/-! ### The answers behind a phase -/

/-- The node has given these details, and its network is in the configuration. -/
structure Prepared (externals : MainExternals) (events : List MainEvent) (details : NetworkDetails)
    (network : NetworkConfig) : Prop where
  chain : MainEvent.start (.systemChain (.ok details.name)) ∈ events
  properties : ∃ systemProperties,
    MainEvent.start (.systemProperties (.ok systemProperties)) ∈ events ∧
      networkDetails details.name systemProperties details.genesisHash = .ok details
  configured : ∃ content networks,
    MainEvent.start (.genesisHash (.ok (some details.genesisHash)) (.ok content) (.ok ())) ∈
      events ∧
      externals.toml content = .ok networks ∧ networks details.name = some network

/-- The file of the secret was private when it was looked at. -/
def Checked (events : List MainEvent) : Prop :=
  ∃ mode, MainEvent.start (.secretMetadata (.ok mode)) ∈ events ∧ isPrivate mode = true

/-- The secret comes from a private file, and is not empty. -/
structure Unlocked (config : Config) (events : List MainEvent) (secret : SlackSecret) : Prop where
  checked : Checked events
  content : ∃ content start, MainEvent.start (.secretFile (.ok content) start) ∈ events ∧
    secret.token = trim content
  nonempty : secret.token ≠ ""
  team : secret.teamId = config.slack.slackTeamId

/-- What a phase holds comes from the answers in `events`. -/
def Backed (externals : MainExternals) (config : Config) (events : List MainEvent) :
    MainPhase capacity → Prop
  | .start (.systemProperties name) => MainEvent.start (.systemChain (.ok name)) ∈ events
  | .start (.genesisHash name systemProperties) =>
      MainEvent.start (.systemChain (.ok name)) ∈ events ∧
        MainEvent.start (.systemProperties (.ok systemProperties)) ∈ events
  | .start (.secretMetadata details network) => Prepared externals events details network
  | .start (.secretFile details network) =>
      Prepared externals events details network ∧ Checked events
  | .running setup secret _ alerter => ∃ details network start,
      Prepared externals events details network ∧ Unlocked config events secret ∧
        setup = config.setup externals details network start ∧
        ∃ alerterEvents, run (Alerter.step setup) (Alerter.init setup) alerterEvents = some alerter
  | _ => True

/-- An answer stays given when another event follows. -/
theorem Prepared.mono {details : NetworkDetails} {network : NetworkConfig}
    (h : Prepared externals events details network) (event : MainEvent) :
    Prepared externals (events ++ [event]) details network := by
  obtain ⟨systemProperties, hproperties, hdetails⟩ := h.properties
  obtain ⟨content, networks, hanswer, htoml, hnetwork⟩ := h.configured
  exact ⟨List.mem_append_left _ h.chain,
    ⟨systemProperties, List.mem_append_left _ hproperties, hdetails⟩,
    ⟨content, networks, List.mem_append_left _ hanswer, htoml, hnetwork⟩⟩

/-- So does the look at the file of the secret. -/
theorem Checked.mono (h : Checked events) (event : MainEvent) : Checked (events ++ [event]) := by
  obtain ⟨mode, hmode, hprivate⟩ := h
  exact ⟨mode, List.mem_append_left _ hmode, hprivate⟩

/-- And so does the secret that was read from it. -/
theorem Unlocked.mono {secret : SlackSecret} (h : Unlocked config events secret)
    (event : MainEvent) :
    Unlocked config (events ++ [event]) secret := by
  obtain ⟨content, start, hcontent, htoken⟩ := h.content
  exact ⟨h.checked.mono event, ⟨content, start, List.mem_append_left _ hcontent, htoken⟩,
    h.nonempty, h.team⟩

/-- What a phase holds is backed by the answers so far, and by those with one more as well. -/
theorem Backed.mono {phase : MainPhase capacity} (h : Backed externals config events phase)
    (event : MainEvent) : Backed externals config (events ++ [event]) phase := by
  cases phase with
  | start phase =>
      cases phase with
      | systemProperties name => exact List.mem_append_left _ h
      | genesisHash name systemProperties =>
          exact ⟨List.mem_append_left _ h.1, List.mem_append_left _ h.2⟩
      | secretMetadata details network => exact Prepared.mono h event
      | secretFile details network => exact ⟨h.1.mono event, h.2.mono event⟩
      | _ => trivial
  | running setup secret uptime alerter =>
      obtain ⟨details, network, start, hprepared, hunlocked, hsetup, hreached⟩ := h
      exact ⟨details, network, start, hprepared.mono event, hunlocked.mono event, hsetup, hreached⟩
  | _ => trivial

/-! ### A `?` that goes on -/

/-- A result after `?` comes from a result before it. -/
theorem bind_eq_ok_iff {ε α β : Type} {result : Except ε α} {next : α → Except ε β} {b : β} :
    (result >>= next) = .ok b ↔ ∃ a, result = .ok a ∧ next a = .ok b := by
  cases result <;> simp [bind, Except.bind]

/-- Translating the error leaves a result as it is. -/
theorem mapError_eq_ok {α : Type} {f : ForeignError → Error} {result : Except ForeignError α}
    {a : α} (h : result.mapError f = .ok a) : result = .ok a := by
  cases result with
  | ok b =>
      cases h
      rfl
  | error err => cases h

/-- A value that is asked for is there. -/
theorem okOr_eq_ok {α : Type} {err : Error} {value : Option α} {a : α}
    (h : okOr err value = .ok a) : value = some a := by
  cases value with
  | some b =>
      cases h
      rfl
  | none => cases h

/-! ### One step -/

/-- The network is configured, or `main` returns. When it is configured, its
details come from the answers of the node, and its accounts from the entry of the
file under its name. -/
theorem configure_cases (externals : MainExternals) (m : Main capacity) (name : String)
    (systemProperties : SystemProperties) (genesisHash : BlockHash)
    (file : Except ForeignError String) (swarm : Except ForeignError Unit) :
    (∃ err, m.configure externals name systemProperties genesisHash file swarm =
        { m with phase := .returned err }) ∨
      ∃ details network content networks,
        networkDetails name systemProperties genesisHash = .ok details ∧ file = .ok content ∧
        externals.toml content = .ok networks ∧ networks details.name = some network ∧
        swarm = .ok () ∧
        m.configure externals name systemProperties genesisHash file swarm =
          { phase := .start (.secretMetadata details network), updates := some .running } := by
  unfold configure
  refine (orReturn_cases _ _).imp_right ?_
  rintro ⟨⟨details, network⟩, hprepared, hnext⟩
  obtain ⟨_, hdetails, hprepared⟩ := bind_eq_ok_iff.mp hprepared
  obtain ⟨networks, hload, hprepared⟩ := bind_eq_ok_iff.mp hprepared
  obtain ⟨_, hnetwork, hprepared⟩ := bind_eq_ok_iff.mp hprepared
  obtain ⟨_, hswarm, hprepared⟩ := bind_eq_ok_iff.mp hprepared
  cases hprepared
  obtain ⟨content, hcontent, htoml⟩ := bind_eq_ok_iff.mp hload
  exact ⟨details, network, content, networks, hdetails, mapError_eq_ok hcontent,
    mapError_eq_ok htoml, okOr_eq_ok hnetwork, mapError_eq_ok hswarm, hnext⟩

/-- The details keep the name and the genesis hash. The token comes from the system
properties, where the decimals are cut to eight bits. -/
theorem networkDetails_eq_ok {name : String} {systemProperties : SystemProperties}
    {genesisHash : BlockHash} {details : NetworkDetails}
    (h : networkDetails name systemProperties genesisHash = .ok details) :
    details.name = name ∧ details.genesisHash = genesisHash ∧
      systemProperties "tokenSymbol" = some (.string details.tokenSymbol) ∧
      ∃ decimals : UInt64, systemProperties "tokenDecimals" = some (.number decimals) ∧
        details.tokenDecimals = decimals.toUInt8 := by
  obtain ⟨ss58Format, -, h⟩ := bind_eq_ok_iff.mp h
  obtain ⟨tokenSymbol, hsymbol, h⟩ := bind_eq_ok_iff.mp h
  obtain ⟨tokenDecimals, hdecimals, h⟩ := bind_eq_ok_iff.mp h
  cases h
  obtain ⟨symbol, hvalue, hstr⟩ := Option.bind_eq_some_iff.mp (okOr_eq_ok hsymbol)
  obtain ⟨number, hnumber, hu64⟩ := Option.bind_eq_some_iff.mp (okOr_eq_ok hdecimals)
  refine ⟨rfl, rfl, ?_, tokenDecimals, ?_, rfl⟩
  · cases symbol <;> cases hstr
    exact hvalue
  · cases number <;> cases hu64
    exact hnumber

/-- A secret is the trimmed content of its file, it is not empty, and it is for the
configured team. -/
theorem slackSecret_eq_ok {teamId content : String} {secret : SlackSecret}
    (h : slackSecret teamId content = .ok secret) :
    secret.token = trim content ∧ secret.token ≠ "" ∧ secret.teamId = teamId := by
  simp only [slackSecret] at h
  split at h
  · cases h
  · rename_i hnonempty
    cases h
    exact ⟨rfl, hnonempty, rfl⟩

/-- A `?` that goes on has a result, and one that returns leaves nothing to back. -/
theorem backed_orReturn {α : Type} {result : Except Error α} {next : α → Main capacity}
    (h : ∀ a, result = .ok a → Backed externals config events (next a).phase) :
    Backed externals config events (m.orReturn result next).phase := by
  rcases orReturn_cases (m := m) result next with ⟨err, heq⟩ | ⟨a, ha, heq⟩
  · rw [heq]
    trivial
  · rw [heq]
    exact h a ha

/-- One step of the start keeps that the phase is backed by the answers. Each step adds
what its own answer gives, and carries over what the phase held before. -/
theorem backed_startStep {phase : StartPhase} {event : StartEvent}
    (hbacked : Backed externals config events (.start phase : MainPhase capacity))
    (h : m.startStep externals config phase event = some m') :
    Backed externals config (events ++ [.start event]) m'.phase := by
  have hevent : MainEvent.start event ∈ events ++ [MainEvent.start event] :=
    List.mem_append_right _ List.mem_cons_self
  have hbefore := hbacked.mono (.start event)
  unfold startStep at h
  split at h
  · cases h
    exact backed_orReturn fun _ _ => trivial
  · cases h
    exact backed_orReturn fun _ _ => trivial
  · -- The name of the chain.
    cases h
    refine backed_orReturn fun name hname => ?_
    cases mapError_eq_ok hname
    exact hevent
  · -- The system properties.
    cases h
    refine backed_orReturn fun systemProperties hproperties => ?_
    cases mapError_eq_ok hproperties
    exact ⟨hbefore, hevent⟩
  · -- The genesis hash and the configuration.
    rename_i name systemProperties result file swarm
    cases h
    refine backed_orReturn fun answer hanswer => ?_
    cases mapError_eq_ok hanswer
    cases answer with
    | none => trivial
    | some genesisHash =>
        show Backed externals config _
          (m.configure externals name systemProperties genesisHash file swarm).phase
        rcases configure_cases externals m name systemProperties genesisHash file swarm with
          ⟨err, heq⟩ |
            ⟨details, network, content, networks, hdetails, rfl, htoml, hnetwork, rfl, heq⟩
        · rw [heq]
          trivial
        · rw [heq]
          obtain ⟨rfl, rfl, -, -⟩ := networkDetails_eq_ok hdetails
          exact ⟨hbefore.1, ⟨systemProperties, hbefore.2, hdetails⟩,
            ⟨content, networks, hevent, htoml, hnetwork⟩⟩
  · -- The permissions of the secret.
    cases h
    refine backed_orReturn fun mode hmode => ?_
    cases mapError_eq_ok hmode
    split
    · rename_i hprivate
      exact ⟨hbefore, mode, hevent, hprivate⟩
    · trivial
  · -- The secret, and the tasks.
    rename_i details network result start
    cases h
    refine backed_orReturn fun content hcontent => backed_orReturn fun secret hsecret => ?_
    cases mapError_eq_ok hcontent
    obtain ⟨htoken, hnonempty, hteam⟩ := slackSecret_eq_ok hsecret
    exact ⟨details, network, start, hbefore.1,
      ⟨hbefore.2, ⟨content, start, hevent, htoken⟩, hnonempty, hteam⟩, rfl, [], rfl⟩
  · cases h

/-- The tasks go on under the same setup. -/
theorem Backed.running {setup : Setup} {secret : SlackSecret} {uptime uptime' : Option UptimeTask}
    {alerter alerter' : Alerter capacity}
    (h : Backed externals config events (.running setup secret uptime alerter))
    (later : List AlerterEvent)
    (hlater : run (Alerter.step setup) alerter later = some alerter') :
    Backed externals config events (.running setup secret uptime' alerter') := by
  obtain ⟨details, network, start, hprepared, hunlocked, hsetup, alerterEvents, hreached⟩ := h
  exact ⟨details, network, start, hprepared, hunlocked, hsetup, alerterEvents ++ later,
    run_append_eq_some.mpr ⟨alerter, hreached, hlater⟩⟩

/-- One step of `main` keeps it, in its start and after it. A running alerter makes a
step of its own loop, so its run grows by that event. -/
theorem Backed.step {event : MainEvent} (h : Backed externals config events m.phase)
    (hstep : m.step externals config event = some m') :
    Backed externals config (events ++ [event]) m'.phase := by
  obtain ⟨hexit, hmoves⟩ := step_moves hstep
  cases hmoves with
  | start phase event m' hphase hstart =>
      rw [hphase] at h
      exact backed_startStep h hstart
  | updates result status hrunning => exact h.mono _
  | uptime setup secret url task task' alerter event hphase htask =>
      rw [hphase] at h
      exact (h.mono _).running [] (run_nil _ _)
  | alerter setup secret uptime alerter alerter' event hphase hjoin halerter =>
      rw [hphase] at h
      exact (h.mono _).running [event] (by rw [run_singleton]; exact halerter)
  | join task setup secret uptime alerter err result hphase hjoined =>
      rw [hphase] at h
      simp only [exit, hphase] at hexit
      refine (h.mono _).running [.process (.joinOther result)] ?_
      rw [run_singleton]
      exact alerter_step_joinOther hexit result

/-- In every run, what the phase holds comes from the answers of this run. -/
theorem run_backed (hrun : run (step externals config) init events = some m) :
    Backed externals config events m.phase :=
  run_history (P := fun events (m : Main capacity) => Backed externals config events m.phase)
    (by trivial) (fun _ _ _ _ _ h hstep => Backed.step h hstep) events m hrun

end Main

/-! ### The posts -/

/-- A configured channel that starts with a `#` is taken as it is. -/
theorem SlackAlerter.channelName_new_of_hash (slackBotName slackBotIcon : String) {name : String}
    {slackChannelName : String} (h : slackChannelName = "#" ++ name) :
    (SlackAlerter.new slackBotName slackBotIcon slackChannelName).channelName = "#" ++ name := by
  have hlist : slackChannelName.toList = '#' :: name.toList := by
    rw [h, String.toList_append]
    rfl
  simp [SlackAlerter.new, hlist]

/-- A configured channel that does not start with a `#` gets one. There is no prefix to
strip, so the whole name follows the `#`. -/
theorem SlackAlerter.channelName_new_of_no_hash (slackBotName slackBotIcon : String)
    {slackChannelName : String} (h : ∀ name, slackChannelName ≠ "#" ++ name) :
    (SlackAlerter.new slackBotName slackBotIcon slackChannelName).channelName =
      "#" ++ slackChannelName := by
  simp only [SlackAlerter.new]
  split
  · rename_i name hlist
    refine absurd (String.toList_inj.mp ?_) (h (String.ofList name))
    simp [hlist]
  · rfl

/-- The number that is shown is the amount in the unit of the node only if the decimals
fit. Otherwise the amount is divided by a smaller power of ten, which only the amount
zero does not show. -/
theorem shown_amount_iff (amount : Nat) (decimals : UInt64) :
    (amount : ℚ) / 10 ^ (decimals.toNat % 256) = amount / 10 ^ decimals.toNat ↔
      decimals.toNat < 256 ∨ amount = 0 := by
  constructor
  · intro heq
    by_cases hzero : amount = 0
    · exact Or.inr hzero
    · have hamount : (amount : ℚ) ≠ 0 := Nat.cast_ne_zero.mpr hzero
      have hten : ∀ n : Nat, (10 : ℚ) ^ n ≠ 0 := fun n => pow_ne_zero n (by norm_num)
      have hpow : (10 : ℚ) ^ decimals.toNat = 10 ^ (decimals.toNat % 256) :=
        mul_left_cancel₀ hamount ((div_eq_div_iff (hten _) (hten _)).mp heq)
      have hexp : decimals.toNat = decimals.toNat % 256 :=
        pow_right_injective₀ (by norm_num) (by norm_num) hpow
      omega
  · rintro (hsmall | rfl)
    · rw [Nat.mod_eq_of_lt hsmall]
    · simp

/-- The text of a posted transfer: its head, and a number for its amount before the
token. The number is that of the exact quotient, by the results about amounts. -/
theorem Alerter.Posted.transfer {capacity : Nat} {setup : Setup} {a : Alerter capacity}
    {posted : List Alert} (h : a.Posted setup posted) (henv : setup.formatEnv.Lawful)
    {transfer : TransferKnownAccountEvent} (hmem : .event (.transfer transfer) ∈ posted)
    (hamount : transfer.amount < 2 ^ 128) :
    ∃ request ∈ a.slack.requests, ∃ number : String,
      request.markdown =
        MdFormat.transferHead transfer ++ (number ++ " " ++ setup.format.tokenName) ∧
      decimalValue number.toList =
        some ((transfer.amount : ℚ) / 10 ^ setup.format.tokenDecimals.toNat) := by
  obtain ⟨texts, hformat, hrequests⟩ := h
  have htext : MdFormat.formatAlert setup.formatEnv setup.format (.event (.transfer transfer)) ∈
      texts.map Except.ok := by
    rw [← hformat]
    exact List.mem_map_of_mem hmem
  obtain ⟨text, hmemText, heq⟩ := List.mem_map.mp htext
  rw [MdFormat.formatAlert_transfer] at heq
  cases hbalance : MdFormat.formatBalance setup.formatEnv setup.format transfer.amount with
  | error reason =>
      rw [hbalance] at heq
      cases heq
  | ok balance =>
      rw [hbalance] at heq
      cases heq
      obtain ⟨number, rfl, hvalue⟩ := MdFormat.prints_of_formatBalance henv hamount hbalance
      refine ⟨setup.slack.request _, ?_, number, rfl, hvalue⟩
      rw [hrequests]
      exact List.mem_map_of_mem hmemText

/-- What `main` posts follows its configuration and the node, in every run from its
start. When it has posted, the node has given the details of its network, this network
is in the configuration, and the secret was read from a private file and is not empty.
All posts go to the configured channel under the configured name and icon: a channel
that starts with a `#` is taken as it is, and any other gets one in front. The accounts
are those of the network. A posted transfer shows its amount in the token of the node,
with the decimals of the node cut to eight bits: the number is the amount in the unit of
the node if and only if the decimals are below 256, or the amount is zero. -/
theorem posts_follow_config (capacity : Nat) (externals : MainExternals) (config : Config)
    (henv : externals.formatEnv.Lawful) (events : List MainEvent) (m : Main capacity)
    (hrun : run (Main.step externals config) Main.init events = some m) (setup : Setup)
    (secret : SlackSecret) (uptime : Option UptimeTask) (alerter : Alerter capacity)
    (hphase : m.phase = .running setup secret uptime alerter) :
    ∃ (details : NetworkDetails) (network : NetworkConfig) (systemProperties : SystemProperties)
      (decimals : UInt64) (posted : List Alert),
      Main.Prepared externals events details network ∧ Main.Unlocked config events secret ∧
      MainEvent.start (.systemProperties (.ok systemProperties)) ∈ events ∧
      systemProperties "tokenDecimals" = some (.number decimals) ∧
      setup.accounts = network.accounts ∧ alerter.Posted setup posted ∧
      (∀ source, posted.filter (fun alert => alert.source = source) <+: alerter.alertsOf source) ∧
      (∀ request ∈ alerter.slack.requests, request.iconEmoji = config.slack.slackBotIcon ∧
        request.username = config.slack.slackBotName ++ "(" ++ CARGO_PKG_VERSION ++ ")" ∧
        (∀ name, config.slack.slackChannelName = "#" ++ name → request.channel = "#" ++ name) ∧
        ((∀ name, config.slack.slackChannelName ≠ "#" ++ name) →
          request.channel = "#" ++ config.slack.slackChannelName)) ∧
      ∀ transfer, .event (.transfer transfer) ∈ posted → transfer.amount < 2 ^ 128 →
        ∃ request ∈ alerter.slack.requests, ∃ (number symbol : String) (value : ℚ),
          systemProperties "tokenSymbol" = some (.string symbol) ∧
          request.markdown = MdFormat.transferHead transfer ++ (number ++ " " ++ symbol) ∧
          decimalValue number.toList = some value ∧
          value = transfer.amount / 10 ^ (decimals.toNat % 256) ∧
          (value = transfer.amount / 10 ^ decimals.toNat ↔
            decimals.toNat < 256 ∨ transfer.amount = 0) := by
  have hbacked := Main.run_backed hrun
  rw [hphase] at hbacked
  obtain ⟨details, network, start, hprepared, hunlocked, rfl, alerterEvents, halerter⟩ := hbacked
  obtain ⟨systemProperties, hproperties, hdetails⟩ := hprepared.properties
  obtain ⟨-, -, hsymbol, decimals, hdecimals, hcut⟩ := Main.networkDetails_eq_ok hdetails
  obtain ⟨posted, hposted, hinitial, -⟩ := Alerter.exists_posted halerter
  refine ⟨details, network, systemProperties, decimals, posted, hprepared, hunlocked, hproperties,
    hdecimals, rfl, hposted, hinitial, ?_, ?_⟩
  · intro request hrequest
    obtain ⟨texts, -, hrequests⟩ := hposted
    rw [hrequests] at hrequest
    obtain ⟨text, -, rfl⟩ := List.mem_map.mp hrequest
    exact ⟨rfl, rfl,
      fun _ => SlackAlerter.channelName_new_of_hash config.slack.slackBotName
        config.slack.slackBotIcon,
      SlackAlerter.channelName_new_of_no_hash config.slack.slackBotName
        config.slack.slackBotIcon⟩
  · intro transfer hmem hamount
    obtain ⟨request, hrequest, number, hmarkdown, hvalue⟩ := hposted.transfer henv hmem hamount
    have hmod : (config.setup externals details network start).format.tokenDecimals.toNat =
        decimals.toNat % 256 := by
      show details.tokenDecimals.toNat = _
      rw [hcut, UInt64.toNat_toUInt8]
    rw [hmod] at hvalue
    exact ⟨request, hrequest, number, details.tokenSymbol, _, hsymbol, hmarkdown, hvalue, rfl,
      shown_amount_iff _ _⟩

/-! ### Decimals that do not fit -/

/-- The tasks of `main`, once they are spawned. -/
def Main.alerter? {capacity : Nat} (m : Main capacity) : Option (Alerter capacity) :=
  match m.phase with
  | .running _ _ _ alerter => some alerter
  | _ => none

/-- Tasks that are there belong to a `main` that runs. -/
theorem Main.phase_of_alerter? {capacity : Nat} {m : Main capacity} {alerter : Alerter capacity}
    (h : m.alerter? = some alerter) :
    ∃ setup secret uptime, m.phase = .running setup secret uptime alerter := by
  unfold alerter? at h
  split at h
  · rename_i hphase
    cases h
    exact ⟨_, _, _, hphase⟩
  · cases h

/-- One request is posted for each alert. -/
theorem Alerter.Posted.length_eq {capacity : Nat} {setup : Setup} {a : Alerter capacity}
    {posted : List Alert} (h : a.Posted setup posted) :
    posted.length = a.slack.requests.length := by
  obtain ⟨texts, hformat, hrequests⟩ := h
  have hlength := congrArg List.length hformat
  rw [List.length_map, List.length_map] at hlength
  rw [hlength, hrequests, List.length_map]

/-- The node reports 274 decimals. A transfer of 9 units is in block `3`, and it is posted. -/
def cutDecimalsEvents : List MainEvent :=
  mainStartEvents 274 ++
    ((sessionReplies 1 ++ received (forkBlock 3) 3).map fun reply =>
      .alerter (.process (.listen reply))) ++
    [.alerter (.process (.recv .events)),
     .alerter (.process (.blockEvents (.ok [⟨"Balances", "Transfer", [9]⟩]))),
     .alerter (.session (.ok ())), .alerter .recvAlert]

/-- It goes to the configured channel `#alerts`, and is shown as if the token
had 18 decimals. -/
theorem posts_follow_config_cutDecimals :
    ∃ (m : Main 4) (alerter : Alerter 4) (request : PostMessageRequest) (number : String),
      run (Main.step sampleMainExternals sampleConfig) Main.init cutDecimalsEvents = some m ∧
      m.alerter? = some alerter ∧ request ∈ alerter.slack.requests ∧
      request.channel = "#alerts" ∧
      request.markdown = MdFormat.transferHead ⟨.sender, .transfer, "third", "alice", 9⟩ ++
        (number ++ " " ++ "AI3") ∧
      decimalValue number.toList = some (9 / 10 ^ 18) ∧ (9 : ℚ) / 10 ^ 18 ≠ 9 / 10 ^ 274 := by
  have hstate : ((run (Main.step sampleMainExternals sampleConfig) (Main.init : Main 4)
      cutDecimalsEvents).bind fun m => m.alerter?.map fun alerter =>
        (alerter.slack.requests.length, alerter.alertsOf .stallAndReorg, alerter.alertsOf .events,
          alerter.alertsOf .slots)) =
      some (1, [], [.event (.transfer ⟨.sender, .transfer, "third", "alice", 9⟩)], []) := by
    decide +kernel
  obtain ⟨m, hrun, hstate⟩ := Option.bind_eq_some_iff.mp hstate
  obtain ⟨alerter, halerter, hstate⟩ := Option.map_eq_some_iff.mp hstate
  simp only [Prod.mk.injEq] at hstate
  obtain ⟨hlength, hstalls, hevents, hslots⟩ := hstate
  obtain ⟨setup, secret, uptime, hphase⟩ := Main.phase_of_alerter? halerter
  obtain ⟨details, network, systemProperties, decimals, posted, -, -, hproperties, hdecimals, -,
    hposted, hinitial, hrequests, hshown⟩ := posts_follow_config 4 sampleMainExternals sampleConfig
    plainFormat_lawful cutDecimalsEvents m hrun setup secret uptime alerter hphase
  have hsample : systemProperties = sampleProperties 274 := by
    simpa [cutDecimalsEvents, mainStartEvents] using hproperties
  subst hsample
  have h274 : decimals = 274 := by
    cases hdecimals
    rfl
  subst h274
  -- The one posted alert is the transfer.
  have htransfer : .event (.transfer ⟨.sender, .transfer, "third", "alice", 9⟩) ∈ posted := by
    obtain ⟨alert, rfl⟩ := List.length_eq_one_iff.mp (hposted.length_eq.trans hlength)
    have hmem : alert ∈ alerter.alertsOf alert.source :=
      (hinitial alert.source).subset (List.mem_filter.mpr ⟨List.mem_singleton_self _, by simp⟩)
    cases hsource : alert.source with
    | stallAndReorg =>
        rw [hsource, hstalls] at hmem
        cases hmem
    | events =>
        rw [hsource, hevents] at hmem
        rw [List.mem_singleton.mp hmem]
        exact List.mem_singleton_self _
    | slots =>
        rw [hsource, hslots] at hmem
        cases hmem
  obtain ⟨request, hrequest, number, symbol, value, hsymbol, hmarkdown, hvalue, rfl, hiff⟩ :=
    hshown _ htransfer (by decide)
  cases hsymbol
  obtain ⟨-, -, hchannel, -⟩ := hrequests request hrequest
  refine ⟨m, alerter, request, number, hrun, halerter, hrequest, hchannel "alerts" rfl, hmarkdown,
    hvalue, fun heq => ?_⟩
  rcases hiff.mp heq with hsmall | hzero
  · exact absurd hsmall (by decide)
  · cases hzero

end ChainAlerter
