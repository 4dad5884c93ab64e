import ChainAlerter.Model.Alerter
import ChainAlerter.Proofs.Monitors
import ChainAlerter.Proofs.Peers
import ChainAlerter.Proofs.SlotGaps

/-!
# `ChainAlerter.Proofs.AlerterSteps`: what one step of the alerter can do

`Alerter.Moves` lists the steps, task by task. The results about runs split on it and
never unfold `Alerter.step`.

Most tasks do not see each other. `run_process` shows each run of the alerter as a run
of the block listener with its two monitors, so that what holds of every run of
`Process` holds here too. `run_slotFeed` does the same for the slot monitor and the
channel that it receives from.

`AddsAlerts` says what a step adds to the alerts of a monitor. Each alert names the
monitor that it comes from, by its kind.
-/

set_option autoImplicit false

namespace ChainAlerter

open ChainAlerter.Library

/-! ### The alerts of a monitor -/

/-- The monitor that sends an alert. -/
def Alert.source : Alert → AlertSource
  | .event _ => .events
  | .chainStall _ => .stallAndReorg
  | .chainRecovery _ => .stallAndReorg
  | .reorg _ => .stallAndReorg
  | .timekeeperStall _ => .slots
  | .timekeeperRecovery _ => .slots
  | .slowSlot _ => .slots
  | .avgSlowSlots _ => .slots

/-- Alerts of one monitor were added. -/
def AddsAlerts (source : AlertSource) (alerts alerts' : List Alert) : Prop :=
  ∃ more, alerts' = alerts ++ more ∧ ∀ alert ∈ more, alert.source = source

/-- Nothing is added. -/
theorem AddsAlerts.refl (source : AlertSource) (alerts : List Alert) :
    AddsAlerts source alerts alerts :=
  ⟨[], (List.append_nil _).symm, fun _ h => by cases h⟩

/-- Alerts of one source are added at the end. -/
theorem AddsAlerts.append {source : AlertSource} {more : List Alert} (alerts : List Alert)
    (h : ∀ alert ∈ more, alert.source = source) : AddsAlerts source alerts (alerts ++ more) :=
  ⟨more, rfl, h⟩

/-- What two steps add is added by both together. -/
theorem AddsAlerts.trans {source : AlertSource} {alerts alerts' alerts'' : List Alert}
    (h : AddsAlerts source alerts alerts') (h' : AddsAlerts source alerts' alerts'') :
    AddsAlerts source alerts alerts'' := by
  obtain ⟨more, rfl, hmore⟩ := h
  obtain ⟨more', rfl, hmore'⟩ := h'
  refine ⟨more ++ more', List.append_assoc _ _ _, fun alert halert => ?_⟩
  rcases List.mem_append.mp halert with h | h
  · exact hmore alert h
  · exact hmore' alert h

/-- Alerts are never taken back: those before are an initial segment of those after. -/
theorem AddsAlerts.isPrefix {source : AlertSource} {alerts alerts' : List Alert}
    (h : AddsAlerts source alerts alerts') : alerts <+: alerts' := by
  obtain ⟨more, rfl, -⟩ := h
  exact List.prefix_append _ _

/-- A monitor that only sends alerts of its own goes on so. -/
theorem AddsAlerts.forall {source : AlertSource} {alerts alerts' : List Alert}
    (h : AddsAlerts source alerts alerts') (hall : ∀ alert ∈ alerts, alert.source = source) :
    ∀ alert ∈ alerts', alert.source = source := by
  obtain ⟨more, rfl, hmore⟩ := h
  intro alert halert
  rcases List.mem_append.mp halert with hold | hnew
  · exact hall alert hold
  · exact hmore alert hnew

/-- A recovery alert of the chain is one of the stall and reorg monitor. -/
theorem Watcher.source_recoveryAlerts {latest : HashAndNumber} {timeout : Option Nat} :
    ∀ alert ∈ recoveryAlerts latest timeout, alert.source = .stallAndReorg := by
  cases timeout <;> simp [recoveryAlerts, Alert.source]

/-- So is a reorg alert, whether the depth reaches the threshold or not. -/
theorem Watcher.source_reorgAlerts {config : StallAndReorgConfig} {latest : HashAndNumber}
    {data : Option ReorgData} :
    ∀ alert ∈ reorgAlerts config latest data, alert.source = .stallAndReorg := by
  cases data with
  | none => simp [reorgAlerts]
  | some data =>
      simp only [reorgAlerts]
      split <;> simp [Alert.source]

/-- A message adds the recovery alert and the reorg alert, both of this monitor. -/
theorem Watcher.addsAlerts_recvBlocks (config : StallAndReorgConfig) (w : Watcher)
    (blocksExt : BlocksExt) :
    AddsAlerts .stallAndReorg w.alerts (w.recvBlocks config blocksExt).alerts := by
  unfold recvBlocks
  cases blocksExt.blocks.getLast? with
  | none => exact .refl _ _
  | some latest =>
      exact (AddsAlerts.append w.alerts source_recoveryAlerts).trans (.append _ source_reorgAlerts)

/-- A timeout adds the stall alert, once there is a best block to name in it. Before the
first block it is only remembered. -/
theorem Watcher.addsAlerts_timeout (config : StallAndReorgConfig) (w : Watcher) :
    AddsAlerts .stallAndReorg w.alerts (w.timeout config).alerts := by
  refine ⟨_, rfl, fun alert halert => ?_⟩
  cases hbest : w.maybeLastBestBlock with
  | none => simp [hbest] at halert
  | some best =>
      simp only [hbest, List.mem_singleton] at halert
      rw [halert]
      rfl

/-- The stall and reorg monitor sends only alerts of its own kinds. The steps that end
it send none. -/
theorem Watcher.step_addsAlerts {config : StallAndReorgConfig} {w w' : Watcher} {e : WatchEvent}
    (h : w.step config e = some w') : AddsAlerts .stallAndReorg w.alerts w'.alerts := by
  cases (step_round h).2 with
  | block blocksExt latest hlast hstatus hbest hstall =>
      exact addsAlerts_recvBlocks config w blocksExt
  | empty blocksExt hlast => exact .refl _ _
  | closed err => exact .refl _ _
  | elapsed => exact addsAlerts_timeout config w

/-- The event monitor sends only alerts about events, and only when it has read all
events of a block. -/
theorem EventWatcher.step_addsAlerts {env : EventExternals} {w w' : EventWatcher}
    {reply : EventsReply}
    (h : w.step env reply = some w') : AddsAlerts .events w.alerts w'.alerts := by
  unfold EventWatcher.step at h
  split at h
  · cases h
    rw [alerts_watchBlocks]
    exact .refl _ _
  · cases h
    exact .refl _ _
  · cases h
    unfold recvEvents
    split
    · rename_i events _
      rw [alerts_watchBlocks]
      refine .append _ fun alert halert => ?_
      obtain ⟨event, -, rfl⟩ := List.mem_map.mp halert
      rfl
    · exact .refl _ _
  · cases h
    exact .refl _ _
  · cases h

namespace SlotMonitor

variable {config : SlotsConfig} {m m' : SlotMonitor}

/-- A recovery alert of the timekeeper is one of the slot monitor. -/
theorem source_recoveryAlerts {proof : GossipProof} {timeout : Option Nat} :
    ∀ alert ∈ recoveryAlerts proof timeout, alert.source = .slots := by
  cases timeout <;> simp [recoveryAlerts, Alert.source]

/-- So is the alert of a single slow slot. -/
theorem source_slowSlotAlerts {last : SlotDetails} {proof : GossipProof} {duration : Nat} :
    ∀ alert ∈ slowSlotAlerts config last proof duration, alert.source = .slots := by
  unfold slowSlotAlerts
  split <;> simp [Alert.source]

/-- So is the alert of a slow average. -/
theorem source_avgSlowSlotAlerts {slots : BoundedVec SlotDetails SLOT_WINDOW} {proof : GossipProof}
    {avg : Nat} : ∀ alert ∈ avgSlowSlotAlerts config slots proof avg, alert.source = .slots := by
  unfold avgSlowSlotAlerts
  split <;> simp [Alert.source]

/-- An extension adds up to three alerts. When the average panics, the first two have
been sent already. -/
theorem addsAlerts_extend (last : SlotDetails) (info : PoTInfo) (duration : Nat) :
    AddsAlerts .slots m.alerts (m.extend config last info duration).alerts := by
  have hslow : AddsAlerts .slots m.alerts (m.alerts ++ recoveryAlerts info.proof m.timeoutFired ++
      slowSlotAlerts config last info.proof duration) :=
    (AddsAlerts.append m.alerts source_recoveryAlerts).trans (.append _ source_slowSlotAlerts)
  rw [extend]
  split
  · exact hslow
  · exact hslow.trans (.append _ source_avgSlowSlotAlerts)

/-- A timeout adds the stall alert, once a slot was recorded. Before the first slot it
is only remembered. -/
theorem addsAlerts_timeout : AddsAlerts .slots m.alerts m.timeout.alerts := by
  refine ⟨_, rfl, fun alert halert => ?_⟩
  cases hlast : m.slots.last? with
  | none => simp [hlast] at halert
  | some last =>
      simp only [hlast, List.mem_singleton] at halert
      rw [halert]
      rfl

/-- The slot monitor sends only alerts of its own kinds. A rejected proof sends none. -/
theorem step_addsAlerts {e : SlotEvent} (h : m.step config e = some m') :
    AddsAlerts .slots m.alerts m'.alerts := by
  cases (step_round h).2 with
  | first info hlast => exact .refl _ _
  | «extends» info last hlast hnext => exact addsAlerts_extend last info _
  | rejects info last hlast hnext hmax => exact .refl _ _
  | overflows info last hlast hmax => exact .refl _ _
  | closed err => exact .refl _ _
  | elapsed => exact addsAlerts_timeout

end SlotMonitor

/-- A step of the process adds alerts to each of its two monitors, and each gets only
its own. So the source of an alert tells which monitor sent it. -/
theorem Process.step_addsAlerts {capacity : Nat} {env : Externals} {eventEnv : EventExternals}
    {config : StallAndReorgConfig} {p p' : Process capacity} {event : ProcessEvent}
    (h : p.step env eventEnv config event = some p') :
    AddsAlerts .stallAndReorg p.watcher.alerts p'.watcher.alerts ∧
      AddsAlerts .events p.eventWatcher.alerts p'.eventWatcher.alerts := by
  cases step_moves h with
  | listen reply listener hstep channel hchannel => exact ⟨.refl _ _, .refl _ _⟩
  | watcherRecv received next watcher hrecv hstep =>
      exact ⟨Watcher.step_addsAlerts hstep, .refl _ _⟩
  | eventsRecv received next eventWatcher hrecv hstep =>
      exact ⟨.refl _ _, EventWatcher.step_addsAlerts hstep⟩
  | elapsed watcher hstep => exact ⟨Watcher.step_addsAlerts hstep, .refl _ _⟩
  | blockEvents answer eventWatcher hstep => exact ⟨.refl _ _, EventWatcher.step_addsAlerts hstep⟩
  | returns event hjoin result => exact ⟨.refl _ _, .refl _ _⟩

/-! ### The steps of the alerter -/

namespace Alerter

variable {capacity : Nat} {setup : Setup} {a a' : Alerter capacity}

/-- Everything that a step can do. -/
inductive Moves (setup : Setup) (a : Alerter capacity) : AlerterEvent → Alerter capacity →
    Prop where
  | process (event : ProcessEvent) (process : Process capacity)
      (hstep : a.process.step setup.env setup.eventEnv setup.stallAndReorg event = some process) :
      Moves setup a (.process event) (a.setProcess process)
  | network (event : NetworkEvent) : Moves setup a (.network event) (a.networkStep event)
  | recvSlot (received : Received PoTInfo) (next : Nat) (slotMonitor : SlotMonitor)
      (hrecv : a.pots.recv a.slotsNext = some (received, next))
      (hstep : a.slotMonitor.step setup.slots (.recv (slotRecvResult received)) =
        some slotMonitor) :
      Moves setup a .recvSlot
        (setSlotMonitor
          { a with slotsNext := next, slotsTaken := a.slotsTaken ++ received.message?.toList }
          slotMonitor)
  | slotElapsed (slotMonitor : SlotMonitor)
      (hstep : a.slotMonitor.step setup.slots .elapsed = some slotMonitor) :
      Moves setup a .slotElapsed (a.setSlotMonitor slotMonitor)
  | session (result : Except Error Unit) (slack : SlackTask)
      (hstep : a.slack.step setup.formatEnv setup.format setup.slack (.session result) =
        some slack) :
      Moves setup a (.session result) (a.setSlack a.alerts slack)
  | recvAlert (alert : Alert) (queue : List Alert) (slack : SlackTask)
      (hqueue : a.alerts.queue = alert :: queue)
      (hstep : a.slack.step setup.formatEnv setup.format setup.slack (.recv (some alert)) =
        some slack) :
      Moves setup a .recvAlert
        (a.setSlack { a.alerts with queue := queue, taken := a.alerts.taken ++ [alert] } slack)
  | posted (result : Except ForeignError Unit) (slack : SlackTask)
      (hstep : a.slack.step setup.formatEnv setup.format setup.slack (.posted result) =
        some slack) :
      Moves setup a (.posted result) (a.setSlack a.alerts slack)
  | joinSlots (err : ForeignError) (result : Except Error Unit)
      (hjoined : a.slotMonitor.status.joined err = some result) :
      Moves setup a (.joinSlots err) { a with process := { a.process with exit := some result } }
  | joinSlack (err : ForeignError) (result : Except Error Unit)
      (hjoined : a.slack.phase.joined err = some result) :
      Moves setup a (.joinSlack err) { a with process := { a.process with exit := some result } }

/-- `main` joins a task that is not one of `Process`. -/
theorem processStep_joinOther {result : Except Error Unit} (hexit : a.process.exit = none) :
    a.processStep setup (.joinOther result) =
      some { a with process := { a.process with exit := some result } } := by
  simp [processStep, Process.step, hexit, setProcess]

/-- A receive of the slot monitor is one of the moves. It is a lemma of its own because
it is the only event whose move depends on the channel. -/
theorem recvSlot_moves (h : a.recvSlot setup = some a') : Moves setup a .recvSlot a' := by
  simp only [Alerter.recvSlot, Option.bind_eq_bind, Option.bind_eq_some_iff] at h
  obtain ⟨⟨received, next⟩, hrecv, slotMonitor, hstep, ha'⟩ := h
  cases ha'
  exact .recvSlot received next slotMonitor hrecv hstep

/-- The Slack task always finds an alert: it holds a sink itself, so its stream is
never closed. -/
theorem recvAlert_moves (h : a.recvAlert setup = some a') : Moves setup a .recvAlert a' := by
  simp only [Alerter.recvAlert, Option.bind_eq_bind, Option.bind_eq_some_iff] at h
  obtain ⟨⟨received, alerts⟩, hrecv, slack, hstep, ha'⟩ := h
  cases ha'
  rcases Mailbox.recv_eq_some hrecv with ⟨alert, queue, hqueue, rfl, rfl⟩ | ⟨-, hsenders, -, -⟩
  · exact .recvAlert alert queue slack hqueue hstep
  · cases hsenders

/-- Everything a step of the alerter can do. While `main` has not returned, each
event is a move of one task, and every invariant of the alerter is proved by a case
split on `Moves`. -/
theorem step_moves {event : AlerterEvent} (h : a.step setup event = some a') :
    a.process.exit = none ∧ Moves setup a event a' := by
  unfold step at h
  split at h
  · cases h
  · rename_i hexit
    have hexit : a.process.exit = none := by simpa using hexit
    refine ⟨hexit, ?_⟩
    cases event with
    | process event =>
        obtain ⟨process, hstep, rfl⟩ := Option.map_eq_some_iff.mp h
        exact .process event process hstep
    | network event =>
        cases h
        exact .network event
    | recvSlot => exact recvSlot_moves h
    | slotElapsed =>
        obtain ⟨slotMonitor, hstep, rfl⟩ := Option.map_eq_some_iff.mp h
        exact .slotElapsed slotMonitor hstep
    | session result =>
        obtain ⟨slack, hstep, rfl⟩ := Option.map_eq_some_iff.mp h
        exact .session result slack hstep
    | recvAlert => exact recvAlert_moves h
    | posted result =>
        obtain ⟨slack, hstep, rfl⟩ := Option.map_eq_some_iff.mp h
        exact .posted result slack hstep
    | joinSlots err =>
        obtain ⟨result, hjoined, hjoin⟩ := Option.bind_eq_some_iff.mp h
        rw [processStep_joinOther hexit] at hjoin
        cases hjoin
        exact .joinSlots err result hjoined
    | joinSlack err =>
        obtain ⟨result, hjoined, hjoin⟩ := Option.bind_eq_some_iff.mp h
        rw [processStep_joinOther hexit] at hjoin
        cases hjoin
        exact .joinSlack err result hjoined

/-- Each monitor sends alerts of its own only. A step belongs to one task, and the
alerts of the other monitors stay as they are. -/
theorem step_addsAlerts {event : AlerterEvent} (h : a.step setup event = some a')
    (source : AlertSource) : AddsAlerts source (a.alertsOf source) (a'.alertsOf source) := by
  cases (step_moves h).2 with
  | process event process hstep =>
      obtain ⟨hwatcher, hevents⟩ := Process.step_addsAlerts hstep
      cases source with
      | stallAndReorg => exact hwatcher
      | events => exact hevents
      | slots => exact .refl _ _
  | recvSlot received next slotMonitor hrecv hstep =>
      cases source with
      | slots => exact SlotMonitor.step_addsAlerts hstep
      | _ => exact .refl _ _
  | slotElapsed slotMonitor hstep =>
      cases source with
      | slots => exact SlotMonitor.step_addsAlerts hstep
      | _ => exact .refl _ _
  | _ => cases source <;> exact .refl _ _

/-! ### The other tasks, one by one -/

/-- The replies of the block listener. -/
def reply? : AlerterEvent → Option Reply
  | .process (.listen reply) => some reply
  | _ => none

/-- Seen through the listener, a run of the alerter is a run of the listener on its
replies. The other tasks leave it as it is. -/
theorem shows_listener : Shows (step setup : Alerter capacity → _ → _) (Listener.step setup.env)
    (fun a => a.process.listener) reply? := by
  intro a event a' h
  cases (step_moves h).2 with
  | process event process hstep =>
      cases Process.step_moves hstep with
      | listen reply listener hlistener channel hchannel => exact hlistener
      | returns event hjoin result => cases event <;> first | rfl | cases hjoin
      | _ => rfl
  | _ => rfl

/-- The listener runs on the replies to it, whatever the other tasks do. -/
theorem run_listener {events : List AlerterEvent}
    (hrun : run (step setup) (init setup) events = some a) :
    run (Listener.step setup.env) Listener.init (events.filterMap reply?) =
      some a.process.listener :=
  shows_listener.run events _ a hrun

/-- The slot monitor with the channel of proofs and what was sent. -/
def slotFeed (a : Alerter capacity) : Feed PoTInfo capacity :=
  { channel := a.pots, sent := a.network.sent, next := a.slotsNext, taken := a.slotsTaken
    running := decide (a.slotMonitor.status = .running) }

/-- An error of the channel ends the slot monitor. -/
theorem slotMonitor_recv_error {config : SlotsConfig} {m m' : SlotMonitor} {err : RecvError}
    (h : m.step config (.recv (.error err)) = some m') :
    m'.status = .returned (.broadRecvErr err) := by
  cases (SlotMonitor.step_round h).2 with
  | closed _ => rfl

/-- A step of the alerter is some steps of the feed of the slot monitor: a gossiped
proof is a send, and a receive is one of the feed. A monitor that runs on after a
receive got a message, since an error ends it. -/
theorem step_slotFeed {event : AlerterEvent} (h : a.step setup event = some a') :
    ∃ events, run Feed.step a.slotFeed events = some a'.slotFeed := by
  cases (step_moves h).2 with
  | network event =>
      have hsent := (Network.round_sent_dialed a.network event).1
      refine ⟨(Network.gossiped? event).toList.map .send, ?_⟩
      rw [Feed.run_sendAll]
      simp [slotFeed, networkStep, hsent]
  | recvSlot received next slotMonitor hrecv hstep =>
      have hrunning := (SlotMonitor.step_round hstep).1
      refine Feed.exists_run_recv (f := a.slotFeed) (by simp [slotFeed, hrunning]) hrecv
        (decide (slotMonitor.status = .running)) fun hrunning' => ?_
      -- It runs on, so what it got was no error.
      have hstatus := of_decide_eq_true hrunning'
      cases received with
      | message info => exact Option.some_ne_none _
      | lagged skipped =>
          rw [slotMonitor_recv_error hstep] at hstatus
          cases hstatus
      | closed =>
          rw [slotMonitor_recv_error hstep] at hstatus
          cases hstatus
  | slotElapsed slotMonitor hstep =>
      cases (SlotMonitor.step_round hstep).2
      exact ⟨[], rfl⟩
  | _ => exact ⟨[], rfl⟩

/-- What the slot monitor has received is an initial segment of what was gossiped. Steps
of other tasks do not touch this channel, and those that do are steps of a feed. -/
theorem run_slotFeed {events : List AlerterEvent}
    (hrun : run (step setup) (init setup) events = some a) : a.slotFeed.Sound := by
  obtain ⟨events', hrun'⟩ := exists_run_view (fun b : Alerter capacity => b.slotFeed)
    (fun _ _ _ h => step_slotFeed h) events _ a hrun
  have hinit : (init setup : Alerter capacity).slotFeed = Feed.init := by
    simp only [slotFeed, init, Network.start_eq]
    rfl
  rw [hinit] at hrun'
  exact Feed.run_sound hrun'

/-- The state of the slot monitor is the one that it reaches on these proofs. -/
def SlotsActOn (config : SlotsConfig) (start : Instant) (slotMonitor : SlotMonitor)
    (taken : List PoTInfo) : Prop :=
  ∃ events, run (SlotMonitor.step config) (SlotMonitor.init start) events = some slotMonitor ∧
    messages events = taken

/-- One step of the slot monitor extends the run that led to it, by the proof that it
received, if any. -/
theorem SlotsActOn.step {config : SlotsConfig} {start : Instant} {m m' : SlotMonitor}
    {taken : List PoTInfo} {e : SlotEvent} (h : SlotsActOn config start m taken)
    (hstep : m.step config e = some m') :
    SlotsActOn config start m' (taken ++ e.message.toList) := by
  obtain ⟨events, hrun, htaken⟩ := h
  refine ⟨events ++ [e], run_append_eq_some.mpr ⟨m, hrun, by rw [run_singleton]; exact hstep⟩, ?_⟩
  rw [messages_append_singleton, htaken]

/-- The proof in the monitor's event is the one that came out of the channel. -/
theorem message_recv_slotRecvResult (received : Received PoTInfo) :
    (SlotEvent.recv (slotRecvResult received)).message = received.message? := by
  cases received <;> rfl

/-- In every run of the alerter, the slot monitor is in the state that its own loop
reaches on the proofs it has taken. So the results on the loop apply to it. -/
theorem run_slotsActOn {events : List AlerterEvent}
    (hrun : run (step setup) (init setup) events = some a) :
    SlotsActOn setup.slots setup.start a.slotMonitor a.slotsTaken := by
  refine run_invariant (P := fun b : Alerter capacity =>
    SlotsActOn setup.slots setup.start b.slotMonitor b.slotsTaken) (fun b event b' hacts h => ?_)
    events _ a ⟨[], rfl, rfl⟩ hrun
  cases (step_moves h).2 with
  | recvSlot received next slotMonitor hrecv hstep =>
      have hacts' := hacts.step hstep
      rw [message_recv_slotRecvResult] at hacts'
      exact hacts'
  | slotElapsed slotMonitor hstep =>
      have hacts' := hacts.step hstep
      rw [show SlotEvent.elapsed.message = none from rfl, Option.toList_none, List.append_nil]
        at hacts'
      exact hacts'
  | _ => exact hacts

/-! ### The block listener and its monitors -/

/-- Every step of the alerter is one of the process, or leaves it as it is.
So the results about the listener and the monitors of the blocks hold beside
the other tasks. -/
theorem step_process {event : AlerterEvent} (h : a.step setup event = some a') :
    ∃ events, run (Process.step setup.env setup.eventEnv setup.stallAndReorg) a.process events =
      some a'.process := by
  obtain ⟨hexit, hmoves⟩ := step_moves h
  have hjoin : ∀ result, Process.step setup.env setup.eventEnv setup.stallAndReorg a.process
      (.joinOther result) = some { a.process with exit := some result } := by
    intro result
    simp [Process.step, hexit]
  cases hmoves with
  | process event process hstep => exact ⟨[event], by rw [run_singleton]; exact hstep⟩
  | joinSlots err result hjoined =>
      exact ⟨[.joinOther result], by rw [run_singleton]; exact hjoin result⟩
  | joinSlack err result hjoined =>
      exact ⟨[.joinOther result], by rw [run_singleton]; exact hjoin result⟩
  | _ => exact ⟨[], rfl⟩

/-- Every run of the alerter is one of the process. -/
theorem run_process {events : List AlerterEvent}
    (hrun : run (step setup) (init setup) events = some a) :
    ∃ events', run (Process.step setup.env setup.eventEnv setup.stallAndReorg)
      (Process.init setup.eventEnv setup.accounts) events' = some a.process :=
  exists_run_view (fun b : Alerter capacity => b.process) (fun _ _ _ h => step_process h) events _ a
    hrun

end Alerter

end ChainAlerter
