import ChainAlerter.Proofs.PostedEvents

/-!
# `ChainAlerter.Proofs.NoPanics`: what it takes for no task to panic

Each task can panic: the listener at a header that does not have its hash, the monitors at
an empty message, at an address or at the end of the slots, and the Slack task at an
amount. `no_task_panics` says that beside an honest node none of them does, in any
interleaving, under conditions on the configuration, on the gossip and on the amounts on
the chain.

The conditions are needed: `Proofs.SlotPanics` and `Proofs.Amounts` have the panics without
them.
-/

set_option autoImplicit false

namespace ChainAlerter

open ChainAlerter.Library
open ChainAlerter.Abstract

/-- The monitor does not panic on messages with blocks. The one panic of its loop is at
a message that has no last block. -/
theorem Process.WatcherActsOn.not_panicked {config : StallAndReorgConfig} {w : Watcher}
    {taken : List BlocksExt} (h : WatcherActsOn config w taken)
    (hblocks : ∀ message ∈ taken, message.blocks ≠ []) : w.status ≠ .panicked := by
  obtain ⟨events, hrun, rfl⟩ := h
  refine run_history (P := fun events w =>
    (∀ message ∈ events.filterMap WatchEvent.message?, message.blocks ≠ []) → w.status ≠ .panicked)
    (fun _ => by simp [Watcher.init])
    (fun events w event w' _ _ hstep hall => ?_) events w hrun hblocks
  obtain ⟨hrunning, hround⟩ := Watcher.step_round hstep
  cases hround with
  | block blocksExt latest hlast hstatus hbest hstall => simp [hstatus]
  | empty blocksExt hlast =>
      -- There is no empty message.
      have hmem : blocksExt ∈
        (events ++ [WatchEvent.recv (.ok blocksExt)]).filterMap WatchEvent.message? := by
        simp [WatchEvent.message?]
      exact absurd (List.getLast?_eq_none_iff.mp hlast) (hall blocksExt hmem)
  | closed err => simp
  | elapsed =>
      show w.status ≠ .panicked
      simp [hrunning]

/-- The slot monitor does not panic on proofs in order for slots below `u64::MAX`. The
increment of the last slot, the sum of the window and the division are all safe then. -/
theorem Alerter.SlotsActOn.not_panicked {config : SlotsConfig} {start : Instant} {m : SlotMonitor}
    {taken : List PoTInfo} (h : SlotsActOn config start m taken) (horder : InOrder taken)
    (hslots : ∀ info ∈ taken, info.proof.slot.toNat + 1 ≠ 2 ^ 64) : m.status ≠ .panicked := by
  obtain ⟨events, hrun, rfl⟩ := h
  refine run_history (P := fun events m => InOrder (messages events) →
    (∀ info ∈ messages events, info.proof.slot.toNat + 1 ≠ 2 ^ 64) → m.status ≠ .panicked)
    (fun _ _ => by simp [SlotMonitor.init])
    (fun events m event m' hbefore _ hstep horder hslots => ?_)
    events m hrun horder hslots
  obtain ⟨hrunning, hround⟩ := SlotMonitor.step_round hstep
  cases event with
  | elapsed =>
      cases hround
      show m.status ≠ .panicked
      simp [hrunning]
  | recv result =>
      cases result with
      | error err =>
          cases hround
          simp
      | ok info =>
          have hnext := (alwaysHasNext_append_singleton.mp (alwaysHasNext_of_messages hslots)).2
          have hrecords := SlotMonitor.run_records config start events m hbefore
          have hrunning' := (hround.running_iff hrecords (SlotMonitor.inOrder_recorded horder)
            hrunning).mpr (hnext info rfl)
          simp [hrunning']

/-- A transfer below `2 ^ 96` has a text. -/
theorem MdFormat.formats_transfer {env : FormatExternals} {config : FormatConfig}
    (henv : env.Lawful)
    (hdecimals : config.tokenDecimals.toNat ≤ 28) {transfer : TransferKnownAccountEvent}
    (hamount : transfer.amount < 2 ^ 96) :
    ∃ text, MdFormat.formatAlert env config (.event (.transfer transfer)) = .ok text := by
  have hfits : transfer.amount < 2 ^ 128 := by omega
  obtain ⟨balance, hbalance⟩ :=
    (MdFormat.formatBalance_eq_ok_iff henv hfits).mpr ⟨hamount, hdecimals⟩
  refine ⟨MdFormat.transferHead transfer ++ balance, ?_⟩
  rw [MdFormat.formatAlert_transfer, hbalance]
  rfl

/-- Each transfer among the events of the chain has a text. -/
def FormatsTransfers (setup : Setup) (eventsAt : BlockHash → List EventDetails) : Prop :=
  ∀ hash transfer,
    .event (.transfer transfer) ∈ blockAlerts setup.eventEnv setup.accounts (.ok (eventsAt hash)) →
    ∃ text, MdFormat.formatAlert setup.formatEnv setup.format (.event (.transfer transfer)) =
      .ok text

/-- Transfers below `2 ^ 96` of a token with at most `28` decimals fit into a
decimal, so none of the alerts that the node's events give makes the formatter panic.
This is where the conditions on the amounts enter. -/
theorem formatsTransfers_of_amounts {setup : Setup} {eventsAt : BlockHash → List EventDetails}
    (henv : setup.formatEnv.Lawful) (hdecimals : setup.format.tokenDecimals.toNat ≤ 28)
    (hamounts : ∀ hash transfer,
      .event (.transfer transfer) ∈
        blockAlerts setup.eventEnv setup.accounts (.ok (eventsAt hash)) →
      transfer.amount < 2 ^ 96) : FormatsTransfers setup eventsAt := by
  intro hash transfer hmem
  exact MdFormat.formats_transfer henv hdecimals (hamounts hash transfer hmem)

namespace Deployment

variable {capacity : Nat} {setup : Setup} {T : BlockTree setup.env}
  {eventsAt : BlockHash → List EventDetails} {d : Deployment T capacity} {node : Node T}
  {events : List (DeploymentEvent T)}

/-- Next to an honest node the listener tracks its tree in every state, and a listener
that tracks has not panicked. So the slice bounds and the `expect` of its loop are
never reached. -/
theorem listener_not_panicked (hlaw : setup.env.Lawful T)
    (hrun : run (step setup eventsAt) (init setup node) events = some d) :
    d.alerter.process.listener.phase ≠ .panicked := by
  obtain ⟨w, h⟩ := run_backed hlaw hrun
  obtain ⟨s, htracks, -⟩ := h.sound
  rw [h.world] at htracks
  exact htracks.not_panicked

/-- The monitor panics on a message without blocks only. It takes what the listener has
sent, which are broadcasts of moves, and each of those has a last block. -/
theorem watcher_not_panicked (hlaw : setup.env.Lawful T)
    (hrun : run (step setup eventsAt) (init setup node) events = some d) :
    d.alerter.process.watcher.status ≠ .panicked := by
  obtain ⟨alerterEvents, halerter⟩ := run_alerter hrun
  obtain ⟨processEvents, hprocess⟩ := Alerter.run_process halerter
  have htaken := (Process.run_feed_sound hprocess .stallAndReorg).taken_initial
  rw [Process.taken_feed, Process.sent_feed] at htaken
  have hacts : Process.WatcherActsOn setup.stallAndReorg d.alerter.process.watcher
      d.alerter.process.watcherTaken := Process.run_actsOnTaken hprocess .stallAndReorg
  refine hacts.not_panicked fun message hmessage => ?_
  obtain ⟨old, new, a, b, -, rfl, hba, -, -⟩ :=
    run_genuine hlaw hrun message (htaken.subset hmessage)
  exact (anchored_broadcast hba).nonempty

/-- The event monitor panics on an account address that does not parse only. All
configured addresses do, by `haddresses`. -/
theorem eventWatcher_not_panicked
    (haddresses : ∀ account ∈ setup.accounts,
      setup.eventEnv.accountIdFromStr account.address ≠ none)
    (hrun : run (step setup eventsAt) (init setup node) events = some d) :
    d.alerter.process.eventWatcher.phase ≠ .panicked := by
  intro hpanicked
  obtain ⟨alerterEvents, halerter⟩ := run_alerter hrun
  obtain ⟨processEvents, hprocess⟩ := Alerter.run_process halerter
  obtain ⟨trace, htrace, -⟩ := Process.run_actsOnTaken hprocess .events
  have hphase := (EventWatcher.run_watched haddresses trace _ htrace).phase
  rw [hpanicked] at hphase
  exact hphase

/-- The slot monitor panics on a slot without a successor only, when the proofs come in
the order of their times. Every slot that it has recorded comes from a gossiped proof,
and by `hslots` none of these is the last `u64`. -/
theorem slotMonitor_not_panicked
    (hrun : run (step setup eventsAt) (init setup node) events = some d)
    (horder : InOrder d.alerter.network.sent)
    (hslots : ∀ info ∈ d.alerter.network.sent, info.proof.slot.toNat + 1 ≠ 2 ^ 64) :
    d.alerter.slotMonitor.status ≠ .panicked := by
  obtain ⟨alerterEvents, halerter⟩ := run_alerter hrun
  have htaken : d.alerter.slotsTaken <+: d.alerter.network.sent :=
    (Alerter.run_slotFeed halerter).taken_initial
  exact (Alerter.run_slotsActOn halerter).not_panicked (horder.sublist htaken.sublist)
    fun info hinfo => hslots info (htaken.subset hinfo)

/-- Only the amount of a transfer can make the formatter fail. All alerts that the task
receives come from the monitors, and the transfers among them from the node's events. -/
theorem slack_not_panicked (hrun : run (step setup eventsAt) (init setup node) events = some d)
    (hformat : FormatsTransfers setup eventsAt) : d.alerter.slack.phase ≠ .panicked := by
  intro hpanicked
  obtain ⟨alerterEvents, halerter⟩ := run_alerter hrun
  obtain ⟨posted, texts, -, -, hhandles⟩ := (Alerter.run_delivers halerter).handles
  rcases hhandles with ⟨hphase, -⟩ | ⟨-, alert, reason, htaken, herror⟩
  · exact hphase hpanicked
  · by_cases htransfer : alert.kind = .transfer
    · obtain ⟨transfer, rfl⟩ := MdFormat.exists_transfer_of_kind htransfer
      -- The alert comes from a block of the chain.
      have hsent : .event (.transfer transfer) ∈ d.alerter.process.eventWatcher.alerts := by
        refine (Alerter.filter_taken halerter .events).1.subset (List.mem_filter.mpr ⟨?_, rfl⟩)
        rw [htaken]
        exact List.mem_append_right _ List.mem_cons_self
      obtain ⟨block, -, hblock⟩ := List.mem_flatMap.mp ((eventWatcher_alerts hrun).1.subset hsent)
      obtain ⟨text, htext⟩ := hformat block.hash transfer hblock
      rw [herror] at htext
      cases htext
    · rw [MdFormat.formatAlert_eq_lines alert htransfer] at herror
      cases herror

end Deployment

/-- No task panics beside an honest node. The node may change its best block at any
time, connections may be lost, requests may fail, and the tasks run in any order. The
conditions are that the configured addresses are valid, that the token has at most 28
decimals, that the transfers of known accounts are below `2 ^ 96`, and that the gossiped
proofs come in the order of their times and for slots below `u64::MAX`. -/
theorem no_task_panics (capacity : Nat) (setup : Setup) (T : BlockTree setup.env)
    (hlaw : setup.env.Lawful T) (henv : setup.formatEnv.Lawful)
    (haddresses : ∀ account ∈ setup.accounts,
      setup.eventEnv.accountIdFromStr account.address ≠ none)
    (hdecimals : setup.format.tokenDecimals.toNat ≤ 28) (eventsAt : BlockHash → List EventDetails)
    (hamounts : ∀ hash transfer,
      .event (.transfer transfer) ∈
        blockAlerts setup.eventEnv setup.accounts (.ok (eventsAt hash)) →
      transfer.amount < 2 ^ 96)
    (node : Node T) (events : List (DeploymentEvent T)) (d : Deployment T capacity)
    (hrun : run (Deployment.step setup eventsAt) (Deployment.init setup node) events = some d)
    (horder : InOrder d.alerter.network.sent)
    (hslots : ∀ info ∈ d.alerter.network.sent, info.proof.slot.toNat + 1 ≠ 2 ^ 64) :
    d.alerter.process.listener.phase ≠ .panicked ∧ d.alerter.process.watcher.status ≠ .panicked ∧
      d.alerter.process.eventWatcher.phase ≠ .panicked ∧ d.alerter.slotMonitor.status ≠ .panicked ∧
      d.alerter.slack.phase ≠ .panicked := by
  have hformat : FormatsTransfers setup eventsAt :=
    formatsTransfers_of_amounts henv hdecimals hamounts
  exact ⟨Deployment.listener_not_panicked hlaw hrun, Deployment.watcher_not_panicked hlaw hrun,
    Deployment.eventWatcher_not_panicked haddresses hrun,
    Deployment.slotMonitor_not_panicked hrun horder hslots,
    Deployment.slack_not_panicked hrun hformat⟩

/-- The only transfer of the fork is one of 9 units. -/
theorem amount_forkEventsAt : ∀ hash transfer,
    .event (.transfer transfer) ∈
      blockAlerts sampleExternals sampleAccounts (.ok (forkEventsAt hash)) →
    transfer.amount < 2 ^ 96 := by
  intro hash transfer hmem
  have htransfer : blockAlerts sampleExternals sampleAccounts
      (.ok [⟨"Balances", "Transfer", [9]⟩]) =
        [.event (.transfer ⟨.sender, .transfer, "third", "alice", 9⟩)] := by
    decide +kernel
  unfold forkEventsAt at hmem
  split at hmem
  · rw [htransfer, List.mem_singleton] at hmem
    cases hmem
    decide
  · exact absurd hmem (List.not_mem_nil)

/-- A transfer is posted and two slots are gossiped, and all tasks run. -/
theorem no_task_panics_growth :
    ∃ d : Deployment forkTree 4,
      run (Deployment.step sampleSetup forkEventsAt) (Deployment.init sampleSetup forkNode)
        (growthDeploymentEvents ++ (slotGossip 1 5 ++ slotGossip 2 6).map .alerter) = some d ∧
      d.alerter.slack.requests.length = 1 ∧ d.alerter.slotsTaken.length = 2 ∧
      d.alerter.slotMonitor.status ≠ .panicked ∧ d.alerter.slack.phase ≠ .panicked := by
  have heval : ((run (Deployment.step sampleSetup forkEventsAt)
      (Deployment.init sampleSetup forkNode : Deployment forkTree 4)
      (growthDeploymentEvents ++ (slotGossip 1 5 ++ slotGossip 2 6).map .alerter)).map fun d =>
        (d.alerter.slack.requests.length, d.alerter.slotsTaken.length, d.alerter.network.sent)) =
      some (1, 2, [potInfo 1 5, potInfo 2 6]) := by
    decide +kernel
  simp only [Option.map_eq_some_iff, Prod.mk.injEq] at heval
  obtain ⟨d, hrun, hlength, htaken, hsent⟩ := heval
  have hpanics := no_task_panics 4 sampleSetup forkTree forkTree_lawful plainFormat_lawful
    (by decide) (by decide) forkEventsAt amount_forkEventsAt forkNode _ d hrun
    (by rw [hsent]; decide) (by rw [hsent]; decide)
  exact ⟨d, hrun, hlength, htaken, hpanics.2.2.2.1, hpanics.2.2.2.2⟩

end ChainAlerter
