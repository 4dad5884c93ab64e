import ChainAlerter.Proofs.NoPanics
import ChainAlerter.Proofs.PostedReorgs

/-!
# `ChainAlerter.Proofs.CatchUp`: the alerter can always catch up

The results on what Slack shows speak of initial segments, since at any time some messages
are still in the channels. Here the rest of them can be handled: from every state in which
the tasks are `Healthy`, the two monitors and the Slack task can make steps, one after the
other, until nothing is left. The node, the listener and the other tasks need not do
anything.

Each of the three tasks has a measure of what is left for it, and a step that lowers the
measure.
-/

set_option autoImplicit false

namespace ChainAlerter

open ChainAlerter.Library
open ChainAlerter.Abstract

namespace Deployment

variable {capacity : Nat} {setup : Setup} {T : BlockTree setup.env}
  {eventsAt : BlockHash → List EventDetails} {node : Node T} {d d' : Deployment T capacity}

/-- A state that can be reached, in which main runs, no monitor has ended or fallen
behind, and the Slack task has its session. -/
structure Healthy (setup : Setup) {T : BlockTree setup.env}
    (eventsAt : BlockHash → List EventDetails) (node : Node T) (d : Deployment T capacity) :
    Prop where
  reached : ∃ events, run (step setup eventsAt) (init setup node) events = some d
  exit : d.alerter.process.exit = none
  watcher : d.alerter.process.watcher.status = .running
  watcherKept : ¬ d.alerter.process.Behind .stallAndReorg
  eventWatcher : d.alerter.process.eventWatcher.phase.isRunning = true
  eventsKept : ¬ d.alerter.process.Behind .events
  slack : d.alerter.slack.phase = .waiting ∨ d.alerter.slack.phase = .posting

/-- The steps that the three tasks make: a monitor receives, the node answers the event
monitor, or the Slack task receives or has posted. -/
def CatchesUp : DeploymentEvent T → Prop
  | .blockEvents result => result = .ok ()
  | .alerter (.process (.recv _)) => True
  | .alerter .recvAlert => True
  | .alerter (.posted result) => result = .ok ()
  | _ => False

/-- Nothing but the monitors and the Slack task has changed. -/
structure SameChain (d d' : Deployment T capacity) : Prop where
  node : d'.node = d.node
  listener : d'.alerter.process.listener = d.alerter.process.listener

/-- Two stretches that leave node and listener alone do so together. -/
theorem SameChain.trans {d'' : Deployment T capacity} (h : SameChain d d') (h' : SameChain d' d'') :
    SameChain d d'' :=
  ⟨h'.node.trans h.node, h'.listener.trans h.listener⟩

/-- A step from a state that can be reached leads to another one. -/
theorem reached_step (h : ∃ events, run (step setup eventsAt) (init setup node) events = some d)
    {event : DeploymentEvent T} (hstep : d.step setup eventsAt event = some d') :
    ∃ events, run (step setup eventsAt) (init setup node) events = some d' := by
  obtain ⟨events, hrun⟩ := h
  exact ⟨events ++ [event], run_append_eq_some.mpr ⟨d, hrun, by rw [run_singleton]; exact hstep⟩⟩

/-! ### The stall and reorg monitor -/

/-- The step in which the stall and reorg monitor receives a message: it works on the
message and counts it as taken. Nothing else in the deployment changes. -/
theorem step_recv_stallAndReorg (eventsAt : BlockHash → List EventDetails) {message : BlocksExt}
    {next : Nat}
    (hexit : d.alerter.process.exit = none)
    (hrunning : d.alerter.process.watcher.status = .running)
    (hrecv : d.alerter.process.channel.recv d.alerter.process.watcherNext =
      some (.message message, next)) :
    d.step setup eventsAt (.alerter (.process (.recv .stallAndReorg))) =
      some { d with
        alerter := d.alerter.setProcess { d.alerter.process with
          watcher := d.alerter.process.watcher.recvBlocks setup.stallAndReorg message
          watcherNext := next
          watcherTaken := d.alerter.process.watcherTaken ++ [message] } } := by
  simp [step, AlerterEvent.isAnswer, alert, Alerter.step, hexit, Alerter.processStep, Process.step,
    Process.recv, hrecv, recvResult, Watcher.step, hrunning, Received.message?]

/-- The messages that a monitor has not received. -/
def untaken (d : Deployment T capacity) (monitor : Monitor) : List BlocksExt :=
  d.alerter.process.listener.sent.drop (d.alerter.process.taken monitor).length

/-- What a monitor of a healthy deployment has received is an initial segment of
what was sent. -/
theorem feed_sound (h : Healthy setup eventsAt node d) (monitor : Monitor) :
    (d.alerter.process.feed monitor).Sound := by
  obtain ⟨events, hrun⟩ := h.reached
  obtain ⟨alerterEvents, halerter⟩ := run_alerter hrun
  obtain ⟨processEvents, hprocess⟩ := Alerter.run_process halerter
  exact Process.run_feed_sound hprocess monitor

/-- A monitor with untaken messages can receive the first of them. It has not fallen
behind, as a healthy state says, so the message is still in the channel. -/
theorem exists_message (h : Healthy setup eventsAt node d) {monitor : Monitor}
    (hmore : d.untaken monitor ≠ []) :
    ∃ message, d.untaken monitor = message ::
        d.alerter.process.listener.sent.drop ((d.alerter.process.taken monitor).length + 1) ∧
      message ∈ d.alerter.process.listener.sent ∧
      (d.alerter.process.feed monitor).channel.recv (d.alerter.process.feed monitor).next =
        some (.message message, (d.alerter.process.feed monitor).next + 1) := by
  have hlength : (d.alerter.process.taken monitor).length <
      d.alerter.process.listener.sent.length := by
    by_contra hle
    exact hmore (List.drop_eq_nil_of_le (by omega))
  have hrunning : (d.alerter.process.feed monitor).running = true := by
    cases monitor with
    | stallAndReorg => exact decide_eq_true h.watcher
    | events => exact h.eventWatcher
  have hkept : (d.alerter.process.feed monitor).channel.dropped ≤
      (d.alerter.process.feed monitor).next := by
    cases monitor with
    | stallAndReorg => exact Nat.le_of_not_lt h.watcherKept
    | events => exact Nat.le_of_not_lt h.eventsKept
  obtain ⟨message, hrecv, hmessage⟩ := (feed_sound h monitor).exists_message hrunning hkept
    (by rw [Process.taken_feed, Process.sent_feed]; exact hlength)
  rw [Process.taken_feed, Process.sent_feed] at hmessage
  obtain ⟨hlt, heq⟩ := List.getElem?_eq_some_iff.mp hmessage
  refine ⟨message, ?_, heq ▸ List.getElem_mem hlt, hrecv⟩
  rw [untaken, List.drop_eq_getElem_cons hlt, heq]

/-- With messages left, the stall and reorg monitor can receive one, and the deployment
stays healthy. The messages have blocks, so the monitor does not panic on one. -/
theorem watcher_progress (hlaw : setup.env.Lawful T) (h : Healthy setup eventsAt node d)
    (hmore : (d.untaken .stallAndReorg).length ≠ 0) :
    ∃ event d', CatchesUp event ∧ d.step setup eventsAt event = some d' ∧
      Healthy setup eventsAt node d' ∧ SameChain d d' ∧
      (d'.untaken .stallAndReorg).length < (d.untaken .stallAndReorg).length := by
  obtain ⟨message, hrest, hmem, hrecv⟩ := exists_message h fun hnil => hmore (by rw [hnil]; rfl)
  have hstep := step_recv_stallAndReorg eventsAt h.exit h.watcher hrecv
  -- A message of the listener is not empty.
  have hrunning : (d.alerter.process.watcher.recvBlocks setup.stallAndReorg message).status =
      .running := by
    obtain ⟨events, hreached⟩ := h.reached
    obtain ⟨old, new, a, b, -, hbroadcast, hba, -, -⟩ := run_genuine hlaw hreached message hmem
    refine recvBlocks_running _ _ ?_ h.watcher
    rw [hbroadcast]
    exact (anchored_broadcast hba).nonempty
  refine ⟨.alerter (.process (.recv .stallAndReorg)), _, trivial, hstep,
    { h with
      reached := reached_step h.reached hstep
      watcher := hrunning
      watcherKept := mt Nat.lt_of_succ_lt h.watcherKept }, ⟨rfl, rfl⟩, ?_⟩
  show (d.alerter.process.listener.sent.drop
    (d.alerter.process.watcherTaken ++ [message]).length).length < _
  rw [hrest, List.length_append, List.length_singleton]
  exact Nat.lt_succ_self _

/-- The stall and reorg monitor receives all messages. The measure is the number of
those that it has not taken, and nothing that another task does is needed. -/
theorem exists_run_watcher (hlaw : setup.env.Lawful T) (h : Healthy setup eventsAt node d) :
    ∃ later d', (∀ event ∈ later, CatchesUp event) ∧ run (step setup eventsAt) d later = some d' ∧
      (Healthy setup eventsAt node d' ∧ SameChain d d') ∧
        (d'.untaken .stallAndReorg).length = 0 := by
  refine exists_run_of_measure
    (P := fun d' : Deployment T capacity => Healthy setup eventsAt node d' ∧ SameChain d d')
    (fun d' => (d'.untaken .stallAndReorg).length) ?_ d ⟨h, rfl, rfl⟩
  rintro d' ⟨h', hsame⟩ hmore
  obtain ⟨event, d'', hevent, hstep, h'', hsame', hlt⟩ := watcher_progress hlaw h' hmore
  exact ⟨event, d'', hevent, hstep, ⟨h'', hsame.trans hsame'⟩, hlt⟩

/-! ### The event monitor -/

/-- The step in which the event monitor receives a message: it starts on its blocks and
counts it as taken. -/
theorem step_recv_events (eventsAt : BlockHash → List EventDetails) {message : BlocksExt}
    {next : Nat}
    (hexit : d.alerter.process.exit = none)
    (hwaiting : d.alerter.process.eventWatcher.phase = .waiting)
    (hrecv : d.alerter.process.channel.recv d.alerter.process.eventsNext =
      some (.message message, next)) :
    d.step setup eventsAt (.alerter (.process (.recv .events))) =
      some { d with
        alerter := d.alerter.setProcess { d.alerter.process with
          eventWatcher := d.alerter.process.eventWatcher.watchBlocks message.blocks
          eventsNext := next
          eventsTaken := d.alerter.process.eventsTaken ++ [message] } } := by
  simp [step, AlerterEvent.isAnswer, alert, Alerter.step, hexit, Alerter.processStep, Process.step,
    Process.recv, hrecv, recvResult, EventWatcher.step, hwaiting, Received.message?]

/-- The step in which the node answers the event monitor with the events of the block
that it waits for. -/
theorem step_blockEvents (eventsAt : BlockHash → List EventDetails) {block : BlockExt}
    {rest : List BlockExt}
    (hexit : d.alerter.process.exit = none)
    (hphase : d.alerter.process.eventWatcher.phase = .fetching block rest) :
    d.step setup eventsAt (.blockEvents (.ok ())) =
      some { d with
        alerter := d.alerter.setProcess { d.alerter.process with
          eventWatcher := d.alerter.process.eventWatcher.recvEvents setup.eventEnv rest
            (eventsAt block.hash) } } := by
  simp [step, hphase, alert, Alerter.step, hexit, Alerter.processStep, Process.step,
    EventWatcher.step, Except.map]

/-- The blocks of a message that the monitor has still to ask for. -/
def blocksLeft : EventsPhase → Nat
  | .fetching _ rest => rest.length + 1
  | _ => 0

/-- What is left for the event monitor: a receive for each message, and a request
for each block. -/
def eventsLeft (d : Deployment T capacity) : Nat :=
  ((d.untaken .events).map fun message => message.blocks.length + 1).sum +
    blocksLeft d.alerter.process.eventWatcher.phase

/-- After it has started on some blocks, all of them are left. -/
theorem blocksLeft_watchBlocks (w : EventWatcher) (blocks : List BlockExt) :
    blocksLeft (w.watchBlocks blocks).phase = blocks.length := by
  cases blocks <;> rfl

/-- The monitor waits for the next message or for the events of a block, so it runs. -/
theorem isRunning_watchBlocks (w : EventWatcher) (blocks : List BlockExt) :
    (w.watchBlocks blocks).phase.isRunning = true := by
  cases blocks <;> rfl

/-- A block whose events decode is no obstacle. The monitor goes on to the next block of
the message, or waits for the next message. -/
theorem exists_watchBlocks {events : List (DeploymentEvent T)}
    (hrun : run (step setup eventsAt) (init setup node) events = some d)
    (hrunning : d.alerter.process.eventWatcher.phase.isRunning = true)
    (hread : ∀ hash, blockReadable setup.eventEnv setup.accounts (.ok (eventsAt hash)) = true)
    (block : BlockExt) (rest : List BlockExt) :
    ∃ w : EventWatcher, d.alerter.process.eventWatcher.recvEvents setup.eventEnv rest
      (eventsAt block.hash) = w.watchBlocks rest := by
  rcases run_asksNode hrun with ⟨trace, htrace⟩ | ⟨hpanicked, -⟩
  · rw [EventWatcher.recvEvents,
      blockAlertEvents_of_readable htrace.watched.known (hread block.hash)]
    exact ⟨_, rfl⟩
  · rw [hpanicked] at hrunning
    cases hrunning

/-- With a message or a block left, the event monitor can go on, and the deployment
stays healthy. A message is received when no block is left, and the events of a block
can be read, so the measure goes down. -/
theorem events_progress (h : Healthy setup eventsAt node d)
    (hread : ∀ hash, blockReadable setup.eventEnv setup.accounts (.ok (eventsAt hash)) = true)
    (hmore : d.eventsLeft ≠ 0) :
    ∃ event d', CatchesUp event ∧ d.step setup eventsAt event = some d' ∧
      Healthy setup eventsAt node d' ∧ SameChain d d' ∧
      d'.untaken .stallAndReorg = d.untaken .stallAndReorg ∧
      d'.eventsLeft < d.eventsLeft := by
  cases hphase : d.alerter.process.eventWatcher.phase with
  | waiting =>
      have huntaken : d.untaken .events ≠ [] := by
        intro hnil
        rw [eventsLeft, hnil, hphase] at hmore
        exact hmore rfl
      obtain ⟨message, hrest, hmem, hrecv⟩ := exists_message h huntaken
      have hstep := step_recv_events eventsAt h.exit hphase hrecv
      refine ⟨.alerter (.process (.recv .events)), _, trivial, hstep,
        { h with
          reached := reached_step h.reached hstep
          eventWatcher := isRunning_watchBlocks _ _
          eventsKept := mt Nat.lt_of_succ_lt h.eventsKept }, ⟨rfl, rfl⟩, rfl, ?_⟩
      show ((d.alerter.process.listener.sent.drop
          (d.alerter.process.eventsTaken ++ [message]).length).map _).sum +
        blocksLeft (d.alerter.process.eventWatcher.watchBlocks message.blocks).phase < _
      rw [eventsLeft, hrest, hphase, blocksLeft_watchBlocks, List.map_cons, List.sum_cons,
        List.length_append, List.length_singleton]
      simp only [blocksLeft, Process.taken]
      omega
  | fetching block rest =>
      have hstep := step_blockEvents eventsAt h.exit hphase
      obtain ⟨events, hrun⟩ := h.reached
      obtain ⟨w, hw⟩ := exists_watchBlocks hrun h.eventWatcher hread block rest
      rw [hw] at hstep
      refine ⟨.blockEvents (.ok ()), _, rfl, hstep,
        { h with
          reached := reached_step h.reached hstep
          eventWatcher := isRunning_watchBlocks w rest }, ⟨rfl, rfl⟩, rfl, ?_⟩
      show ((d.untaken .events).map _).sum + blocksLeft (w.watchBlocks rest).phase < _
      rw [eventsLeft, hphase, blocksLeft_watchBlocks]
      exact Nat.lt_succ_self _
  | returned err =>
      have hrunning := h.eventWatcher
      rw [hphase] at hrunning
      cases hrunning
  | panicked =>
      have hrunning := h.eventWatcher
      rw [hphase] at hrunning
      cases hrunning

/-- The event monitor receives all messages, and asks for the events of all blocks. The
measure counts the messages and the blocks that are left, and a message brings its
blocks into it. -/
theorem exists_run_events (h : Healthy setup eventsAt node d)
    (hread : ∀ hash, blockReadable setup.eventEnv setup.accounts (.ok (eventsAt hash)) = true)
    (hwatcher : d.untaken .stallAndReorg = []) :
    ∃ later d', (∀ event ∈ later, CatchesUp event) ∧ run (step setup eventsAt) d later = some d' ∧
      (Healthy setup eventsAt node d' ∧ SameChain d d' ∧ d'.untaken .stallAndReorg = []) ∧
      d'.eventsLeft = 0 := by
  refine exists_run_of_measure (P := fun d' : Deployment T capacity =>
    Healthy setup eventsAt node d' ∧ SameChain d d' ∧ d'.untaken .stallAndReorg = [])
    eventsLeft ?_ d ⟨h, ⟨rfl, rfl⟩, hwatcher⟩
  rintro d' ⟨h', hsame, hnil⟩ hmore
  obtain ⟨event, d'', hevent, hstep, h'', hsame', hwatcher', hlt⟩ := events_progress h' hread hmore
  exact ⟨event, d'', hevent, hstep, ⟨h'', hsame.trans hsame', hwatcher'.trans hnil⟩, hlt⟩

/-! ### The Slack task -/

/-- Every alert in the channel can be formatted. Those of the monitors of blocks and
slots always can, and a transfer can by its amount. -/
theorem formats_queue (h : Healthy setup eventsAt node d)
    (hformat : FormatsTransfers setup eventsAt) :
    ∀ alert ∈ d.alerter.alerts.queue, ∃ text,
      MdFormat.formatAlert setup.formatEnv setup.format alert = .ok text := by
  intro alert hmem
  by_cases htransfer : alert.kind = .transfer
  · obtain ⟨transfer, rfl⟩ := MdFormat.exists_transfer_of_kind htransfer
    obtain ⟨events, hrun⟩ := h.reached
    obtain ⟨alerterEvents, halerter⟩ := run_alerter hrun
    have hend : d.alerter.slack.phase.isEnd = false := by
      rcases h.slack with hphase | hphase <;> rw [hphase] <;> rfl
    -- The event monitor has sent it, so it is one of a block.
    have hsent : .event (.transfer transfer) ∈ d.alerter.process.eventWatcher.alerts := by
      show _ ∈ d.alerter.alertsOf .events
      rw [← (Alerter.filter_taken halerter .events).2 hend]
      exact List.mem_filter.mpr ⟨List.mem_append_right _ hmem, rfl⟩
    obtain ⟨block, -, hblock⟩ := List.mem_flatMap.mp ((eventWatcher_alerts hrun).1.subset hsent)
    exact hformat block.hash transfer hblock
  · exact ⟨_, MdFormat.formatAlert_eq_lines alert htransfer⟩

/-- The Slack task posts all alerts in the channel, though it ends a post before it
takes the next alert. -/
theorem exists_run_slack (h : Healthy setup eventsAt node d)
    (hformat : ∀ alert ∈ d.alerter.alerts.queue, ∃ text,
      MdFormat.formatAlert setup.formatEnv setup.format alert = .ok text) :
    ∃ later d', (∀ event ∈ later, CatchesUp event) ∧ run (step setup eventsAt) d later = some d' ∧
      d'.node = d.node ∧ d.alerter.Drained d'.alerter := by
  have hdrain : ∃ later a', (∀ event ∈ later, Alerter.IsPosting (.ok ()) event) ∧
      run (Alerter.step setup) d.alerter later = some a' ∧ d.alerter.Drained a' := by
    rcases h.slack with hwaiting | hposting
    · exact Alerter.exists_run_drained _ d.alerter.alerts.queue d.alerter rfl h.exit hwaiting
        hformat
    · exact Alerter.exists_run_drained_of_posting _ h.exit hposting hformat
  obtain ⟨later, a', hlater, hrun, hdrained⟩ := hdrain
  refine ⟨later.map .alerter, { d with alerter := a' }, ?_, ?_, rfl, hdrained⟩
  · intro event hevent
    obtain ⟨event, hmem, rfl⟩ := List.mem_map.mp hevent
    rcases hlater event hmem with rfl | rfl
    · trivial
    · rfl
  · refine run_map (fun a => { d with alerter := a }) DeploymentEvent.alerter ?_ later d.alerter a'
      hlater hrun
    intro a event a' hposting hstep
    rcases hposting with rfl | rfl
    · simp [step, AlerterEvent.isAnswer, alert, hstep]
    · simp [step, AlerterEvent.isAnswer, alert, hstep]

/-! ### All of them -/

/-- The three tasks have handled everything. -/
structure CaughtUp (d : Deployment T capacity) : Prop where
  watcher : d.alerter.process.watcherTaken = d.alerter.process.listener.sent
  events : d.alerter.process.eventsTaken = d.alerter.process.listener.sent
  eventWatcher : d.alerter.process.eventWatcher.phase = .waiting
  slack : d.alerter.slack.phase.isEnd = false
  queue : d.alerter.alerts.queue = []

/-- A monitor with nothing left has received all that was sent. -/
theorem taken_eq_sent (h : Healthy setup eventsAt node d) {monitor : Monitor}
    (hnil : d.untaken monitor = []) :
    d.alerter.process.taken monitor = d.alerter.process.listener.sent := by
  have htaken := (feed_sound h monitor).taken_initial
  rw [Process.taken_feed, Process.sent_feed] at htaken
  exact htaken.eq_of_length_le (List.drop_eq_nil_iff.mp hnil)

/-- Nothing is left for the event monitor: it has taken all messages, and it has no
request open. -/
theorem eventsLeft_eq_zero (h : Healthy setup eventsAt node d) (hdone : d.eventsLeft = 0) :
    d.untaken .events = [] ∧ d.alerter.process.eventWatcher.phase = .waiting := by
  have hrunning := h.eventWatcher
  obtain ⟨hsum, hblocks⟩ := Nat.add_eq_zero_iff.mp hdone
  refine ⟨?_, ?_⟩
  · cases huntaken : d.untaken .events with
    | nil => rfl
    | cons message rest =>
        rw [huntaken, List.map_cons, List.sum_cons] at hsum
        omega
  · cases hphase : d.alerter.process.eventWatcher.phase with
    | waiting => rfl
    | fetching block rest =>
        rw [hphase] at hblocks
        cases hblocks
    | returned err =>
        rw [hphase] at hrunning
        cases hrunning
    | panicked =>
        rw [hphase] at hrunning
        cases hrunning

/-- From a healthy state the two monitors and the Slack task can catch up. The monitors
come first, one after the other, each by induction on what is left to it, and then the
Slack task drains the channel. -/
theorem exists_run_caughtUp (hlaw : setup.env.Lawful T) (h : Healthy setup eventsAt node d)
    (hread : ∀ hash, blockReadable setup.eventEnv setup.accounts (.ok (eventsAt hash)) = true)
    (hformat : FormatsTransfers setup eventsAt) :
    ∃ later d', (∀ event ∈ later, CatchesUp event) ∧ run (step setup eventsAt) d later = some d' ∧
      SameChain d d' ∧ CaughtUp d' := by
  obtain ⟨first, d₁, hfirst, hrun₁, ⟨h₁, hsame₁⟩, hdone₁⟩ := exists_run_watcher hlaw h
  obtain ⟨second, d₂, hsecond, hrun₂, ⟨h₂, hsame₂, hwatcher⟩, hdone₂⟩ :=
    exists_run_events h₁ hread (List.eq_nil_of_length_eq_zero hdone₁)
  obtain ⟨huntaken, hwaiting⟩ := eventsLeft_eq_zero h₂ hdone₂
  obtain ⟨third, d₃, hthird, hrun₃, hnode, hdrained⟩ :=
    exists_run_slack h₂ (formats_queue h₂ hformat)
  have hsame₃ : SameChain d₂ d₃ := ⟨hnode, by rw [hdrained.process]⟩
  refine ⟨first ++ second ++ third, d₃, ?_, ?_, (hsame₁.trans hsame₂).trans hsame₃, ?_⟩
  · intro event hevent
    rcases List.mem_append.mp hevent with hevent | hevent
    · rcases List.mem_append.mp hevent with hevent | hevent
      · exact hfirst event hevent
      · exact hsecond event hevent
    · exact hthird event hevent
  · exact run_append_eq_some.mpr ⟨d₂, run_append_eq_some.mpr ⟨d₁, hrun₁, hrun₂⟩, hrun₃⟩
  · refine ⟨?_, ?_, ?_, ?_, hdrained.queue⟩
    · rw [hdrained.process]
      exact taken_eq_sent h₂ hwatcher
    · rw [hdrained.process]
      exact taken_eq_sent h₂ huntaken
    · rw [hdrained.process]
      exact hwaiting
    · rw [hdrained.phase]
      rfl

end Deployment

/-- Nothing is lost while the tasks are healthy. From every reachable state in which
main runs, no monitor of the blocks has ended or fallen behind and the Slack task has
its session, the monitors and the Slack task can go on by themselves, with the node's
answers for the blocks, until Slack shows exactly what it should: every alert that was
sent, the deep reorgs of all messages of the listener in their order, and the events of
all blocks of these messages in the order of the chain. The node and the listener need
not make a step. The conditions are that the events of the chain decode and that the
amounts of the transfers can be formatted. -/
theorem alerter_can_catch_up (capacity : Nat) (setup : Setup) (T : BlockTree setup.env)
    (hlaw : setup.env.Lawful T) (henv : setup.formatEnv.Lawful)
    (hdecimals : setup.format.tokenDecimals.toNat ≤ 28) (eventsAt : BlockHash → List EventDetails)
    (hamounts : ∀ hash transfer,
      .event (.transfer transfer) ∈
        blockAlerts setup.eventEnv setup.accounts (.ok (eventsAt hash)) →
      transfer.amount < 2 ^ 96)
    (hread : ∀ hash, blockReadable setup.eventEnv setup.accounts (.ok (eventsAt hash)) = true)
    (node : Node T) (d : Deployment T capacity) (h : Deployment.Healthy setup eventsAt node d) :
    ∃ (later : List (DeploymentEvent T)) (d' : Deployment T capacity) (posted : List Alert),
      (∀ event ∈ later, Deployment.CatchesUp event) ∧
      run (Deployment.step setup eventsAt) d later = some d' ∧ d'.node = d.node ∧
      d'.alerter.process.listener = d.alerter.process.listener ∧ d'.alerter.Posted setup posted ∧
      (∀ source, posted.filter (fun alert => alert.source = source) = d'.alerter.alertsOf source) ∧
      posted.filterMap Alert.reorg? =
        d.alerter.process.listener.sent.filterMap (alertedReorg setup.stallAndReorg) ∧
      posted.filter (fun alert => alert.source = .events) =
        chainAlerts setup eventsAt (d.alerter.process.listener.sent.flatMap BlocksExt.blocks) := by
  obtain ⟨later, d', hlater, hrun, hsame, hcaught⟩ :=
    Deployment.exists_run_caughtUp hlaw h hread
      (formatsTransfers_of_amounts henv hdecimals hamounts)
  obtain ⟨events, hreached⟩ := h.reached
  have hall : run (Deployment.step setup eventsAt) (Deployment.init setup node) (events ++ later) =
      some d' := run_append_eq_some.mpr ⟨d, hreached, hrun⟩
  obtain ⟨alerterEvents, halerter⟩ := Deployment.run_alerter hall
  obtain ⟨posted, hposted, -, hrest⟩ := Alerter.exists_posted halerter
  have hsource : ∀ source,
      posted.filter (fun alert => alert.source = source) = d'.alerter.alertsOf source := by
    intro source
    have hfilter := hrest hcaught.slack source
    rw [hcaught.queue, List.append_nil] at hfilter
    exact hfilter
  refine ⟨later, d', posted, hlater, hrun, hsame.node, hsame.listener, hposted, hsource, ?_, ?_⟩
  · -- The reorgs of the monitor are those of the messages it has received, which are all.
    have hreorgs : posted.filterMap Alert.reorg? = d'.alerter.process.watcher.reorgs := by
      rw [← filterMap_reorg?_filter posted, hsource .stallAndReorg]
      rfl
    rw [hreorgs, (Alerter.watcher_reorgs halerter).2, hcaught.watcher, hsame.listener]
  · rw [hsource .events, ← hsame.listener]
    exact (Deployment.eventWatcher_alerts hall).2 hcaught.events hcaught.eventWatcher

/-- Every block of the fork decodes. -/
theorem readable_forkEventsAt : ∀ hash,
    blockReadable sampleExternals sampleAccounts (.ok (forkEventsAt hash)) = true := by
  intro hash
  unfold forkEventsAt
  split
  · decide +kernel
  · decide +kernel

/-- The listener has followed the node over to the fork, and neither monitor has received. -/
def unreadForkEvents : List (DeploymentEvent forkTree) :=
  (forkSwitch ++ [WorldEvent.answer]).map .world ++ [.alerter (.session (.ok ()))]

/-- The reorg from `3` to `4` and the transfer in `3` can both be posted. -/
theorem alerter_can_catch_up_fork :
    ∃ (d d' : Deployment forkTree 4) (later : List (DeploymentEvent forkTree))
      (posted : List Alert),
      run (Deployment.step sampleSetup forkEventsAt) (Deployment.init sampleSetup forkNode)
        unreadForkEvents = some d ∧ d.alerter.slack.requests = [] ∧
      run (Deployment.step sampleSetup forkEventsAt) d later = some d' ∧
      d'.alerter.Posted sampleSetup posted ∧
      posted.filterMap Alert.reorg? =
        [{ bestBlock := ⟨2, 4⟩, commonBlock := ⟨1, 2⟩, enacted := [], retracted := [⟨2, 3⟩] }] ∧
      posted.filter (fun alert => alert.source = .events) =
        [.event (.transfer ⟨.sender, .transfer, "third", "alice", 9⟩)] := by
  have hstate : ((run (Deployment.step sampleSetup forkEventsAt)
      (Deployment.init sampleSetup forkNode : Deployment forkTree 4) unreadForkEvents).map fun d =>
        (decide (d.alerter.process.exit.isNone ∧ d.alerter.process.watcher.status = .running ∧
            d.alerter.process.channel.dropped = 0 ∧
            d.alerter.process.eventWatcher.phase.isRunning = true ∧
            d.alerter.slack.phase = .waiting ∧ d.alerter.slack.requests = []),
          d.alerter.process.listener.sent.filterMap (alertedReorg sampleSetup.stallAndReorg),
          chainAlerts sampleSetup forkEventsAt
            (d.alerter.process.listener.sent.flatMap BlocksExt.blocks))) =
      some (true,
        [{ bestBlock := ⟨2, 4⟩, commonBlock := ⟨1, 2⟩, enacted := [], retracted := [⟨2, 3⟩] }],
        [.event (.transfer ⟨.sender, .transfer, "third", "alice", 9⟩)]) := by
    decide +kernel
  simp only [Option.map_eq_some_iff, Prod.mk.injEq, decide_eq_true_eq, Option.isNone_iff_eq_none]
    at hstate
  obtain ⟨d, hrun, ⟨hexit, hwatcher, hdropped, hevents, hphase, hrequests⟩, hreorgs,
    hchain⟩ := hstate
  have hhealthy : Deployment.Healthy sampleSetup forkEventsAt forkNode d :=
    { reached := ⟨_, hrun⟩, exit := hexit, watcher := hwatcher
      watcherKept := by simp [Process.Behind, hdropped], eventWatcher := hevents
      eventsKept := by simp [Process.Behind, hdropped], slack := Or.inl hphase }
  obtain ⟨later, d', posted, -, hlater, -, -, hposted, -, hposts, hshows⟩ := alerter_can_catch_up 4
    sampleSetup forkTree forkTree_lawful plainFormat_lawful (by decide) forkEventsAt
    amount_forkEventsAt readable_forkEventsAt forkNode d hhealthy
  exact ⟨d, d', later, posted, hrun, hrequests, hlater, hposted, hposts.trans hreorgs,
    hshows.trans hchain⟩

end ChainAlerter
