import ChainAlerter.Proofs.AlerterSteps
import ChainAlerter.Proofs.Texts

/-!
# `ChainAlerter.Proofs.Delivery`: the alerts reach Slack

Three monitors put their alerts into one channel, and the Slack task posts what it
receives from it. `Delivers` is what each step of the alerter keeps: each monitor has
handed over all its alerts, the Slack task has taken them from the front, and has posted
what it took.

`alerts_posted_in_order` is the result for every interleaving of the tasks. What was
posted of each monitor is an initial segment of its alerts, each once and in their
order, and while the Slack task runs the rest is still in the channel.
`alerts_can_be_posted` says that the rest can be posted, whatever the other tasks do and
whatever becomes of each post.
-/

set_option autoImplicit false

namespace ChainAlerter

open ChainAlerter.Library

/-- A task that makes a step has not ended. -/
theorem SlackTask.isEnd_of_step {env : FormatExternals} {config : FormatConfig}
    {slack : SlackAlerter}
    {task task' : SlackTask} {event : SlackEvent}
    (h : task.step env config slack event = some task') : task.phase.isEnd = false := by
  unfold SlackTask.step at h
  split at h
  · rename_i hphase; rw [hphase]; rfl
  · rename_i hphase; rw [hphase]; rfl
  · rename_i hphase; rw [hphase]; rfl
  · rename_i hphase; rw [hphase]; rfl
  · rename_i hphase; rw [hphase]; rfl
  · cases h

namespace Alerter

variable {capacity : Nat} {setup : Setup} {a a' : Alerter capacity}

/-- What the alert channel has to do with the tasks at its ends. -/
structure Delivers (setup : Setup) (a : Alerter capacity) : Prop where
  sound : a.alerts.Sound
  isOpen : a.alerts.isOpen = !a.slack.phase.isEnd
  handed : ∀ source, a.alerts.Handed source (a.alertsOf source)
  handles : SlackTask.Handles setup.formatEnv setup.format setup.slack a.alerts.taken a.slack

/-- At the start no monitor has sent an alert, the event monitor neither, even if it has
panicked at an address by then. -/
theorem alertsOf_init (source : AlertSource) :
    (init setup : Alerter capacity).alertsOf source = [] := by
  cases source with
  | stallAndReorg => rfl
  | events =>
      simp only [alertsOf, init, Process.init, EventWatcher.init]
      split <;> rfl
  | slots => rfl

/-- At the start the channel and the Slack task are empty as well, so nothing is owed. -/
theorem delivers_init : Delivers setup (init setup : Alerter capacity) := by
  refine ⟨Mailbox.sound_empty, rfl, fun source => ?_, [], [], rfl, rfl, Or.inl ⟨?_, rfl⟩⟩
  · rw [alertsOf_init]
    exact Mailbox.handed_empty source
  · simp [init, SlackTask.init]

/-- The monitors of the blocks make a step. Each puts the alerts that it makes into the
channel, behind those that are there. -/
theorem Delivers.setProcess (h : Delivers setup a) {process : Process capacity}
    (hwatcher : a.process.watcher.alerts <+: process.watcher.alerts)
    (hevents : a.process.eventWatcher.alerts <+: process.eventWatcher.alerts) :
    Delivers setup (a.setProcess process) := by
  refine ⟨(h.sound.sendAll _ _).sendAll _ _, ?_, fun source => ?_, ?_⟩
  · simp only [Alerter.setProcess, Mailbox.isOpen_sendAll]
    exact h.isOpen
  · cases source with
    | stallAndReorg =>
        exact ((h.handed .stallAndReorg).sendAll_self hwatcher).sendAll_of_ne (by decide) _
    | events =>
        exact ((h.handed .events).sendAll_of_ne (by decide) _).sendAll_self hevents
    | slots =>
        exact ((h.handed .slots).sendAll_of_ne (by decide) _).sendAll_of_ne (by decide) _
  · simp only [Alerter.setProcess, Mailbox.taken_sendAll]
    exact h.handles

/-- The slot monitor makes a step. It has a sink of its own, so its alerts come into the
channel in the order in which it makes them. -/
theorem Delivers.setSlotMonitor (h : Delivers setup a) {slotMonitor : SlotMonitor}
    (hslots : a.slotMonitor.alerts <+: slotMonitor.alerts) :
    Delivers setup (a.setSlotMonitor slotMonitor) := by
  refine ⟨h.sound.sendAll _ _, ?_, fun source => ?_, ?_⟩
  · simp only [Alerter.setSlotMonitor, Mailbox.isOpen_sendAll]
    exact h.isOpen
  · cases source with
    | stallAndReorg => exact (h.handed .stallAndReorg).sendAll_of_ne (by decide) _
    | events => exact (h.handed .events).sendAll_of_ne (by decide) _
    | slots => exact (h.handed .slots).sendAll_self hslots
  · simp only [Alerter.setSlotMonitor, Mailbox.taken_sendAll]
    exact h.handles

/-- The Slack task makes a step. `alerts` is the channel after it, if the task goes on.
If it ends, the channel is closed with what was left in it. -/
theorem Delivers.setSlack {alerts : Mailbox AlertSource Alert} {slack : SlackTask}
    (hsound : alerts.Sound) (hopen : alerts.isOpen = true)
    (hhanded : ∀ source, alerts.Handed source (a.alertsOf source))
    (hhandles : SlackTask.Handles setup.formatEnv setup.format setup.slack alerts.taken slack) :
    Delivers setup (a.setSlack alerts slack) := by
  unfold Alerter.setSlack
  cases hend : slack.phase.isEnd with
  | true =>
      refine ⟨hsound.close, ?_, fun source => ?_, hhandles⟩
      · show false = !slack.phase.isEnd
        rw [hend]
        rfl
      · exact (hhanded source).close
  | false =>
      refine ⟨hsound, ?_, fun source => ?_, hhandles⟩
      · show alerts.isOpen = !slack.phase.isEnd
        rw [hend, hopen]
        rfl
      · exact hhanded source

/-- The channel is open at a step of the Slack task. -/
theorem Delivers.isOpen_of_step (h : Delivers setup a) {event : SlackEvent} {slack : SlackTask}
    (hstep : a.slack.step setup.formatEnv setup.format setup.slack event = some slack) :
    a.alerts.isOpen = true := by
  rw [h.isOpen, SlackTask.isEnd_of_step hstep]
  rfl

/-- One step keeps the delivery. A monitor puts its new alerts into the channel,
the Slack task takes the oldest one and posts it, and every other step leaves
both sides alone. -/
theorem step_delivers {event : AlerterEvent} (h : a.step setup event = some a')
    (hdelivers : Delivers setup a) : Delivers setup a' := by
  cases (step_moves h).2 with
  | process event process hstep =>
      obtain ⟨hwatcher, hevents⟩ := Process.step_addsAlerts hstep
      exact hdelivers.setProcess hwatcher.isPrefix hevents.isPrefix
  | network event => exact ⟨hdelivers.sound, hdelivers.isOpen, hdelivers.handed, hdelivers.handles⟩
  | recvSlot received next slotMonitor hrecv hstep =>
      have hsame : Delivers setup
          { a with slotsNext := next, slotsTaken := a.slotsTaken ++ received.message?.toList } :=
        ⟨hdelivers.sound, hdelivers.isOpen, hdelivers.handed, hdelivers.handles⟩
      exact hsame.setSlotMonitor (SlotMonitor.step_addsAlerts hstep).isPrefix
  | slotElapsed slotMonitor hstep =>
      exact hdelivers.setSlotMonitor (SlotMonitor.step_addsAlerts hstep).isPrefix
  | session result slack hstep =>
      have hopen := hdelivers.isOpen_of_step hstep
      have hhandles := hdelivers.handles.step hstep
      rw [show SlackTask.received [.session result] = [] from rfl, List.append_nil] at hhandles
      exact .setSlack hdelivers.sound hopen hdelivers.handed hhandles
  | recvAlert alert queue slack hqueue hstep =>
      have hopen := hdelivers.isOpen_of_step hstep
      have hrecv : a.alerts.recv 1 = some (some alert,
          { a.alerts with queue := queue, taken := a.alerts.taken ++ [alert] }) := by
        simp [Mailbox.recv, hqueue]
      exact .setSlack (hdelivers.sound.recv hopen hrecv) hopen
        (fun source => ⟨(hdelivers.handed source).initial, (hdelivers.handed source).all⟩)
        (hdelivers.handles.step hstep)
  | posted result slack hstep =>
      have hopen := hdelivers.isOpen_of_step hstep
      have hhandles := hdelivers.handles.step hstep
      rw [show SlackTask.received [.posted result] = [] from rfl, List.append_nil] at hhandles
      exact .setSlack hdelivers.sound hopen hdelivers.handed hhandles
  | joinSlots err result hjoined =>
      exact ⟨hdelivers.sound, hdelivers.isOpen,
        fun source => by cases source <;> exact hdelivers.handed _, hdelivers.handles⟩
  | joinSlack err result hjoined =>
      exact ⟨hdelivers.sound, hdelivers.isOpen,
        fun source => by cases source <;> exact hdelivers.handed _, hdelivers.handles⟩

/-- In every run the alerts are delivered: what was posted and what waits in the channel
is what the monitors have sent. -/
theorem run_delivers {events : List AlerterEvent}
    (hrun : run (step setup) (init setup) events = some a) : Delivers setup a :=
  run_invariant (fun _ _ _ hdelivers h => step_delivers h hdelivers) events _ a delivers_init hrun

/-- Each monitor has sent alerts of its own only, so the kind of an alert tells its sender. -/
theorem run_source {events : List AlerterEvent}
    (hrun : run (step setup) (init setup) events = some a)
    (source : AlertSource) : ∀ alert ∈ a.alertsOf source, alert.source = source := by
  refine run_invariant (P := fun b : Alerter capacity =>
    ∀ alert ∈ b.alertsOf source, alert.source = source)
    (fun b event b' hall h => (step_addsAlerts h source).forall hall) events _ a ?_ hrun
  rw [alertsOf_init]
  intro alert halert
  cases halert

/-- The alerts that were put into the channel, by the monitor that they come from. -/
theorem filter_log {events : List AlerterEvent}
    (hrun : run (step setup) (init setup) events = some a)
    (source : AlertSource) :
    (a.alerts.log.map Prod.snd).filter (fun alert => alert.source = source) =
      sentBy source a.alerts.log := by
  refine filter_eq_sentBy (fun entry hentry => ?_) source
  have hmem := ((run_delivers hrun).handed entry.1).initial.subset (mem_sentBy_of_mem hentry)
  exact run_source hrun entry.1 entry.2 hmem

/-- What the Slack task has taken of each monitor is an initial segment of its alerts,
and while it runs the rest is in the channel. -/
theorem filter_taken {events : List AlerterEvent}
    (hrun : run (step setup) (init setup) events = some a) (source : AlertSource) :
    a.alerts.taken.filter (fun alert => alert.source = source) <+: a.alertsOf source ∧
      (a.slack.phase.isEnd = false →
        (a.alerts.taken ++ a.alerts.queue).filter (fun alert => alert.source = source) =
          a.alertsOf source) := by
  have hdelivers := run_delivers hrun
  have hlog := filter_log hrun source
  refine ⟨?_, fun hend => ?_⟩
  · have htaken := hdelivers.sound.taken_initial.filter fun alert => alert.source = source
    rw [hlog] at htaken
    exact htaken.trans (hdelivers.handed source).initial
  · have hopen : a.alerts.isOpen = true := by
      rw [hdelivers.isOpen, hend]
      rfl
    rw [hdelivers.sound.queue hopen, hlog]
    exact (hdelivers.handed source).all hopen

end Alerter

namespace Alerter

variable {capacity : Nat} {setup : Setup} {a : Alerter capacity}

/-- The requests of the Slack task are those for the texts of these alerts. -/
def Posted (setup : Setup) (a : Alerter capacity) (posted : List Alert) : Prop :=
  ∃ texts : List String,
    posted.map (MdFormat.formatAlert setup.formatEnv setup.format) = texts.map .ok ∧
    a.slack.requests = texts.map setup.slack.request

/-- The posted alerts of each monitor are an initial segment of its alerts, and while
the Slack task runs the rest is in the channel. -/
theorem exists_posted {events : List AlerterEvent}
    (hrun : run (step setup) (init setup) events = some a) :
    ∃ posted, a.Posted setup posted ∧
      (∀ source, posted.filter (fun alert => alert.source = source) <+: a.alertsOf source) ∧
      (a.slack.phase.isEnd = false → ∀ source,
        (posted ++ a.alerts.queue).filter (fun alert => alert.source = source) =
          a.alertsOf source) := by
  obtain ⟨posted, texts, hformat, hrequests, hposted⟩ := (run_delivers hrun).handles
  have htaken := filter_taken hrun
  refine ⟨posted, ⟨texts, hformat, hrequests⟩, ?_⟩
  rcases hposted with ⟨-, hall⟩ | ⟨hpanicked, alert, reason, hlast, -⟩
  · rw [← hall]
    exact ⟨fun source => (htaken source).1, fun hend source => (htaken source).2 hend⟩
  · -- The alert that made it panic was taken, and not posted.
    refine ⟨fun source => ?_, fun hend => ?_⟩
    · have hinitial := (htaken source).1
      rw [hlast, List.filter_append] at hinitial
      exact (List.prefix_append _ _).trans hinitial
    · rw [hpanicked] at hend
      cases hend

end Alerter

/-- In every interleaving of the tasks, the Slack task has posted the texts of a list of
alerts, one request for each, in this order. Each monitor has sent alerts of its own
kinds only, and the list has an initial segment of them, in their order. While the Slack
task runs, the alerts that are not posted are in the channel, so none is lost and none
is posted twice. -/
theorem alerts_posted_in_order (capacity : Nat) (setup : Setup) (events : List AlerterEvent)
    (a : Alerter capacity) (hrun : run (Alerter.step setup) (Alerter.init setup) events = some a) :
    (∀ source, ∀ alert ∈ a.alertsOf source, alert.source = source) ∧
    ∃ posted, a.Posted setup posted ∧
      (∀ source, posted.filter (fun alert => alert.source = source) <+: a.alertsOf source) ∧
      (a.slack.phase.isEnd = false → ∀ source,
        (posted ++ a.alerts.queue).filter (fun alert => alert.source = source) =
          a.alertsOf source) :=
  ⟨Alerter.run_source hrun, Alerter.exists_posted hrun⟩

/-! ### A stall of the timekeeper -/

/-- Thresholds of whole seconds, and a reorg of one block is reported. -/
def sampleSetup : Setup :=
  { env := walkExternals, eventEnv := sampleExternals, formatEnv := plainFormat
    stallAndReorg := { nonBlockImportThreshold := Duration.fromSecs 30, reorgDepthThreshold := 1 }
    slots := { perSlotThreshold := Duration.fromSecs 1, avgSlotThreshold := Duration.fromSecs 1 }
    format := plainConfig, slack := .new "alerter" ":robot:" "alerts", accounts := sampleAccounts
    bootnodes := [], start := .ofSecs 0 }

/-- A peer gossips the proof of a slot at a time, and the slot monitor receives it. -/
def slotGossip (secs : UInt64) (slot : Slot) : List AlerterEvent :=
  [.network (.swarm (.ofSecs secs) (.potNotifications (.notification ⟨[1]⟩ ⟨slot⟩))), .recvSlot]

/-- Slot 5, a stall of 30 seconds, and slot 6. The first alert is posted. -/
def stallEvents : List AlerterEvent :=
  slotGossip 1 5 ++ [.slotElapsed, .session (.ok ()), .recvAlert] ++ slotGossip 32 6

/-- The first of the three alerts of this run has been posted, and the others
are in the channel. -/
theorem exists_run_stallEvents :
    ∃ a : Alerter 2,
      run (Alerter.step sampleSetup) (Alerter.init sampleSetup) stallEvents = some a ∧
      a.process.exit = none ∧ a.slack.phase = .posting ∧ a.slack.requests.length = 1 ∧
      a.alerts.queue = [.timekeeperRecovery ⟨6, Duration.fromSecs 30⟩,
        .slowSlot ⟨6, 5, Duration.fromSecs 31, Duration.fromSecs 1⟩] ∧
      a.alertsOf .slots = [.timekeeperStall ⟨5, Duration.fromSecs 30⟩,
        .timekeeperRecovery ⟨6, Duration.fromSecs 30⟩,
        .slowSlot ⟨6, 5, Duration.fromSecs 31, Duration.fromSecs 1⟩] := by
  have heval : ((run (Alerter.step sampleSetup) (Alerter.init sampleSetup : Alerter 2)
      stallEvents).map fun a => (a.process.exit.isNone, a.slack.phase, a.slack.requests.length,
        a.alerts.queue, a.alertsOf .slots)) =
      some (true, .posting, 1, [.timekeeperRecovery ⟨6, Duration.fromSecs 30⟩,
          .slowSlot ⟨6, 5, Duration.fromSecs 31, Duration.fromSecs 1⟩],
        [.timekeeperStall ⟨5, Duration.fromSecs 30⟩, .timekeeperRecovery ⟨6, Duration.fromSecs 30⟩,
          .slowSlot ⟨6, 5, Duration.fromSecs 31, Duration.fromSecs 1⟩]) := by
    decide +kernel
  simpa only [Option.map_eq_some_iff, Prod.mk.injEq, Option.isNone_iff_eq_none] using heval

/-- The one request is that of the stall. -/
theorem alerts_posted_in_order_stall :
    ∃ (a : Alerter 2) (posted : List Alert),
      run (Alerter.step sampleSetup) (Alerter.init sampleSetup) stallEvents = some a ∧
      a.slack.requests.length = 1 ∧ a.Posted sampleSetup posted ∧
      (posted ++ a.alerts.queue).filter (fun alert => alert.source = .slots) =
        a.alertsOf .slots := by
  obtain ⟨a, hrun, -, hphase, hlength, -, -⟩ := exists_run_stallEvents
  obtain ⟨-, posted, hposted, -, hrest⟩ := alerts_posted_in_order 2 sampleSetup stallEvents a hrun
  exact ⟨a, posted, hrun, hlength, hposted, hrest (by rw [hphase]; rfl) .slots⟩

/-! ### Posting what is left -/

namespace Alerter

variable {capacity : Nat} {setup : Setup} {a : Alerter capacity}

/-- The alert in front is posted. -/
theorem step_recvAlert {alert : Alert} {queue : List Alert} {text : String}
    (hexit : a.process.exit = none) (hphase : a.slack.phase = .waiting)
    (hqueue : a.alerts.queue = alert :: queue)
    (hformat : MdFormat.formatAlert setup.formatEnv setup.format alert = .ok text) :
    a.step setup .recvAlert =
      some (a.setSlack { a.alerts with queue := queue, taken := a.alerts.taken ++ [alert] }
        { phase := .posting, requests := a.slack.requests ++ [setup.slack.request text] }) := by
  simp [step, hexit, Alerter.recvAlert, Mailbox.recv, hqueue, SlackTask.step, hphase,
    SlackTask.recvAlert, hformat]

/-- The post ends, with or without an error. -/
theorem step_posted (hexit : a.process.exit = none) (hphase : a.slack.phase = .posting)
    (result : Except ForeignError Unit) :
    a.step setup (.posted result) =
      some (a.setSlack a.alerts { a.slack with phase := .waiting }) := by
  simp [step, hexit, slackStep, SlackTask.step, hphase]

/-- Only the Slack task has made steps, and it has emptied the channel. -/
structure Drained (a a' : Alerter capacity) : Prop where
  queue : a'.alerts.queue = []
  phase : a'.slack.phase = .waiting
  process : a'.process = a.process
  slotMonitor : a'.slotMonitor = a.slotMonitor

/-- The steps of the Slack task, where each post ends with `result`. -/
def IsPosting (result : Except ForeignError Unit) (event : AlerterEvent) : Prop :=
  event = .recvAlert ∨ event = .posted result

/-- A Slack task with its session can post all that waits. The induction is on the
queue: it takes the oldest alert, posts it, and waits for the next one, whatever the
answer to the post is. -/
theorem exists_run_drained (result : Except ForeignError Unit) (queue : List Alert) :
    ∀ a : Alerter capacity, a.alerts.queue = queue → a.process.exit = none →
      a.slack.phase = .waiting →
      (∀ alert ∈ queue, ∃ text,
        MdFormat.formatAlert setup.formatEnv setup.format alert = .ok text) →
      ∃ later a', (∀ event ∈ later, IsPosting result event) ∧
        run (step setup) a later = some a' ∧ a.Drained a' := by
  induction queue with
  | nil =>
      intro a hqueue hexit hphase _
      exact ⟨[], a, by simp, rfl, hqueue, hphase, rfl, rfl⟩
  | cons alert queue ih =>
      intro a hqueue hexit hphase hformat
      obtain ⟨text, htext⟩ := hformat alert List.mem_cons_self
      have hrecv := step_recvAlert hexit hphase hqueue htext
      -- One receive and one post, and the rest of the queue from there.
      set b := a.setSlack { a.alerts with queue := queue, taken := a.alerts.taken ++ [alert] }
        { phase := .posting, requests := a.slack.requests ++ [setup.slack.request text] } with hb
      have hposted : b.step setup (.posted result) =
          some (b.setSlack b.alerts { b.slack with phase := .waiting }) :=
        step_posted (a := b) hexit rfl result
      obtain ⟨later, a', hlater, hrun, hdrained⟩ :=
        ih (b.setSlack b.alerts { b.slack with phase := .waiting }) rfl hexit rfl
          fun alert' hmem => hformat alert' (List.mem_cons_of_mem _ hmem)
      refine ⟨.recvAlert :: .posted result :: later, a', ?_, ?_, hdrained.queue, hdrained.phase,
        hdrained.process, hdrained.slotMonitor⟩
      · intro event hevent
        rcases List.mem_cons.mp hevent with rfl | hevent
        · exact Or.inl rfl
        · rcases List.mem_cons.mp hevent with rfl | hevent
          · exact Or.inr rfl
          · exact hlater event hevent
      · rw [run_cons_eq_some]
        exact ⟨b, hrecv, run_cons_eq_some.mpr ⟨_, hposted, hrun⟩⟩

/-- A post that is under way ends first. Its result does not matter, as the task goes on
after a failed post. -/
theorem exists_run_drained_of_posting (result : Except ForeignError Unit)
    (hexit : a.process.exit = none) (hphase : a.slack.phase = .posting)
    (hformat : ∀ alert ∈ a.alerts.queue, ∃ text,
      MdFormat.formatAlert setup.formatEnv setup.format alert = .ok text) :
    ∃ later a', (∀ event ∈ later, IsPosting result event) ∧
      run (step setup) a later = some a' ∧ a.Drained a' := by
  obtain ⟨later, a', hlater, hrun, hdrained⟩ := exists_run_drained result a.alerts.queue
    (a.setSlack a.alerts { a.slack with phase := .waiting }) rfl hexit rfl hformat
  refine ⟨.posted result :: later, a', ?_, ?_, hdrained.queue, hdrained.phase, hdrained.process,
    hdrained.slotMonitor⟩
  · intro event hevent
    rcases List.mem_cons.mp hevent with rfl | hevent
    · exact Or.inr rfl
    · exact hlater event hevent
  · exact run_cons_eq_some.mpr ⟨_, step_posted hexit hphase result, hrun⟩

end Alerter

/-- In every reachable state in which `main` still runs and the Slack task has its
session, the Slack task alone can post every alert that was ever sent, one request for
each, with the alerts of each monitor in their order. The other tasks need not make a
step, and the posts may all fail. The only condition is that no amount in the channel
makes the formatter panic. -/
theorem alerts_can_be_posted (capacity : Nat) (setup : Setup) (events : List AlerterEvent)
    (a : Alerter capacity) (hrun : run (Alerter.step setup) (Alerter.init setup) events = some a)
    (hexit : a.process.exit = none)
    (hphase : a.slack.phase = .waiting ∨ a.slack.phase = .posting)
    (hformat : ∀ alert ∈ a.alerts.queue, ∃ text,
      MdFormat.formatAlert setup.formatEnv setup.format alert = .ok text)
    (result : Except ForeignError Unit) :
    ∃ (later : List AlerterEvent) (a' : Alerter capacity) (posted : List Alert),
      (∀ event ∈ later, event = .recvAlert ∨ event = .posted result) ∧
      run (Alerter.step setup) a later = some a' ∧ a'.Posted setup posted ∧
      ∀ source, posted.filter (fun alert => alert.source = source) = a.alertsOf source := by
  have hdrain : ∃ later a', (∀ event ∈ later, Alerter.IsPosting result event) ∧
      run (Alerter.step setup) a later = some a' ∧ a.Drained a' := by
    rcases hphase with hwaiting | hposting
    · exact Alerter.exists_run_drained result a.alerts.queue a rfl hexit hwaiting hformat
    · exact Alerter.exists_run_drained_of_posting result hexit hposting hformat
  obtain ⟨later, a', hlater, hrun', hdrained⟩ := hdrain
  have hall : run (Alerter.step setup) (Alerter.init setup) (events ++ later) = some a' :=
    run_append_eq_some.mpr ⟨a, hrun, hrun'⟩
  -- Nothing is left in the channel, so all that was sent was posted.
  obtain ⟨posted, hposted, -, hrest⟩ := Alerter.exists_posted hall
  refine ⟨later, a', posted, hlater, hrun', hposted, fun source => ?_⟩
  have hend : a'.slack.phase.isEnd = false := by
    rw [hdrained.phase]
    rfl
  have hsame : a'.alertsOf source = a.alertsOf source := by
    cases source with
    | stallAndReorg => rw [Alerter.alertsOf, hdrained.process]; rfl
    | events => rw [Alerter.alertsOf, hdrained.process]; rfl
    | slots => rw [Alerter.alertsOf, hdrained.slotMonitor]; rfl
  have hfilter := hrest hend source
  rw [hdrained.queue, List.append_nil, hsame] at hfilter
  exact hfilter

/-- After the stall the Slack task can post the other two alerts, though each post fails. -/
theorem alerts_can_be_posted_stall :
    ∃ (a a' : Alerter 2) (later : List AlerterEvent) (posted : List Alert),
      run (Alerter.step sampleSetup) (Alerter.init sampleSetup) stallEvents = some a ∧
      run (Alerter.step sampleSetup) a later = some a' ∧
      posted.filter (fun alert => alert.source = .slots) =
        [.timekeeperStall ⟨5, Duration.fromSecs 30⟩, .timekeeperRecovery ⟨6, Duration.fromSecs 30⟩,
          .slowSlot ⟨6, 5, Duration.fromSecs 31, Duration.fromSecs 1⟩] ∧
      a'.Posted sampleSetup posted := by
  obtain ⟨a, hrun, hexit, hphase, -, hqueue, halerts⟩ := exists_run_stallEvents
  have hformat : ∀ alert ∈ a.alerts.queue, ∃ text,
      MdFormat.formatAlert sampleSetup.formatEnv sampleSetup.format alert = .ok text := by
    rw [hqueue]
    intro alert halert
    simp only [List.mem_cons, List.not_mem_nil, or_false] at halert
    rcases halert with rfl | rfl
    · exact ⟨_, rfl⟩
    · exact ⟨_, rfl⟩
  obtain ⟨later, a', posted, -, hrun', hposted, hall⟩ :=
    alerts_can_be_posted 2 sampleSetup stallEvents a hrun hexit (Or.inr hphase) hformat
      (.error { message := "ratelimited" })
  exact ⟨a, a', later, posted, hrun, hrun', (hall .slots).trans halerts, hposted⟩

end ChainAlerter
