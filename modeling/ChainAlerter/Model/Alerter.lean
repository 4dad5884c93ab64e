import ChainAlerter.Library.Mailbox
import ChainAlerter.Model.Network
import ChainAlerter.Model.Process
import ChainAlerter.Model.Slack

/-!
# `ChainAlerter.Model.Alerter`: all tasks of the alerter

`main` of `alerter/src/main.rs`, from where it spawns its tasks. `Process` has the
block listener, its broadcast channel and the two monitors of it. Here the other tasks
come in:

- the network task, which sends gossiped proofs to a second broadcast channel;
- the slot monitor, which receives from it;
- the Slack task, which receives the alerts of all three monitors from one unbounded
  channel and posts them.

The tasks run concurrently, so `Alerter.step` interleaves their steps in any order. A
task goes from one of its waits to the next in a step. What a monitor puts into the
alert channel on the way is what the step adds to its list of alerts.

The runtime updates and the uptime pushes exchange nothing with the other tasks, so
they appear only in that they may end. A panic inside `libp2p` is not modelled: the
network task never ends.
-/

set_option autoImplicit false

namespace ChainAlerter

open ChainAlerter.Library

/-- The tasks that were given a sink of the alert channel. -/
inductive AlertSource where
  | stallAndReorg
  | events
  | slots
  deriving DecidableEq, Repr

/-- What `main` hands to its tasks: the functions of other crates, the configs, and the
time at which the slot monitor starts. -/
structure Setup where
  env : Externals
  eventEnv : EventExternals
  formatEnv : FormatExternals
  stallAndReorg : StallAndReorgConfig
  slots : SlotsConfig
  format : FormatConfig
  slack : SlackAlerter
  accounts : List Account
  bootnodes : List Multiaddr
  start : Instant

/-- The tasks and the channels between them. `pots` is the channel of gossiped proofs,
and `alerts` that of the alerts. -/
structure Alerter (capacity : Nat) where
  process : Process capacity
  network : Network
  pots : BroadcastChannel PoTInfo capacity
  slotMonitor : SlotMonitor
  slotsNext : Nat
  slotsTaken : List PoTInfo
  alerts : Mailbox AlertSource Alert
  slack : SlackTask

/-- The steps of the alerter.

- `process`: a step of the listener or of one of its monitors, or the join of one of them. Its
  `joinOther` is the join of the runtime updates or of the uptime pushes;
- `network`: a round of the network task;
- `recvSlot`, `slotElapsed`: the slot monitor receives a proof, or its timeout fires;
- `session`, `recvAlert`, `posted`: the Slack task opens its session, receives an alert, or gets
  the answer to a post;
- `joinSlots`, `joinSlack`: `main` joins one of these tasks. -/
inductive AlerterEvent where
  | process (event : ProcessEvent)
  | network (event : NetworkEvent)
  | recvSlot
  | slotElapsed
  | session (result : Except Error Unit)
  | recvAlert
  | posted (result : Except ForeignError Unit)
  | joinSlots (err : ForeignError)
  | joinSlack (err : ForeignError)

/-- The result of `slot_stream.recv()`. -/
def slotRecvResult : Received PoTInfo → Except RecvError PoTInfo
  | .message info => .ok info
  | .lagged skipped => .error (.lagged skipped)
  | .closed => .error .closed

/-- Whether the Slack task has ended. -/
def SlackPhase.isEnd : SlackPhase → Bool
  | .returned _ => true
  | .panicked => true
  | _ => false

/-- What `main` finds when it joins the Slack task, once this has ended. -/
@[inherit_doc Phase.joined]
def SlackPhase.joined (err : ForeignError) : SlackPhase → Option (Except Error Unit)
  | .returned e => some (.error e)
  | .panicked => some (.error (.join err))
  | _ => none

namespace Alerter

variable {capacity : Nat}

/-- All tasks are spawned. The bootnodes are dialed, and nothing has been sent. -/
def init (setup : Setup) : Alerter capacity :=
  { process := .init setup.eventEnv setup.accounts, network := .start setup.bootnodes
    pots := .empty, slotMonitor := .init setup.start, slotsNext := 0, slotsTaken := []
    alerts := .empty, slack := .init }

/-- The alerts that a monitor has sent, oldest first. -/
def alertsOf (a : Alerter capacity) : AlertSource → List Alert
  | .stallAndReorg => a.process.watcher.alerts
  | .events => a.process.eventWatcher.alerts
  | .slots => a.slotMonitor.alerts

/-- The process after a step, with the alerts that its monitors have sent in it. -/
def setProcess (a : Alerter capacity) (process : Process capacity) : Alerter capacity :=
  { a with
    process := process
    alerts := (a.alerts.sendAll .stallAndReorg
        (process.watcher.alerts.drop a.process.watcher.alerts.length)).sendAll .events
      (process.eventWatcher.alerts.drop a.process.eventWatcher.alerts.length) }

/-- The slot monitor after a step, with the alerts that it has sent in it. -/
def setSlotMonitor (a : Alerter capacity) (slotMonitor : SlotMonitor) : Alerter capacity :=
  { a with
    slotMonitor := slotMonitor
    alerts := a.alerts.sendAll .slots (slotMonitor.alerts.drop a.slotMonitor.alerts.length) }

/-- The Slack task after a step. Its receiver is dropped when it ends. -/
def setSlack (a : Alerter capacity) (alerts : Mailbox AlertSource Alert) (slack : SlackTask) :
    Alerter capacity :=
  { a with
    alerts := if slack.phase.isEnd then alerts.close else alerts
    slack := slack }

/-- A round of the network task. It keeps a receiver of its own, so a send never fails. -/
def networkStep (a : Alerter capacity) (event : NetworkEvent) : Alerter capacity :=
  let network := a.network.round event
  { a with
    network := network
    pots := a.pots.sendAll (network.sent.drop a.network.sent.length) }

/-- The slot monitor receives. -/
def recvSlot (setup : Setup) (a : Alerter capacity) : Option (Alerter capacity) := do
  let (received, next) ← a.pots.recv a.slotsNext
  let slotMonitor ← a.slotMonitor.step setup.slots (.recv (slotRecvResult received))
  return setSlotMonitor
    { a with slotsNext := next, slotsTaken := a.slotsTaken ++ received.message?.toList } slotMonitor

/-- Whether a monitor still has its sink. -/
def hasSink (a : Alerter capacity) : AlertSource → Bool
  | .stallAndReorg => a.process.watcher.status = .running
  | .events =>
      match a.process.eventWatcher.phase with
      | .waiting => true
      | .fetching _ _ => true
      | _ => false
  | .slots => a.slotMonitor.status = .running

/-- The sinks of the alert channel: those of the monitors that run, and the one that
`SlackAlerter` keeps for `sink()`. -/
def senders (a : Alerter capacity) : Nat :=
  ([AlertSource.stallAndReorg, .events, .slots].filter a.hasSink).length + 1

/-- The Slack task receives. -/
def recvAlert (setup : Setup) (a : Alerter capacity) : Option (Alerter capacity) := do
  let (alert, alerts) ← a.alerts.recv a.senders
  let slack ← a.slack.step setup.formatEnv setup.format setup.slack (.recv alert)
  return a.setSlack alerts slack

/-- The other steps of the Slack task. -/
def slackStep (setup : Setup) (a : Alerter capacity) (event : SlackEvent) :
    Option (Alerter capacity) :=
  (a.slack.step setup.formatEnv setup.format setup.slack event).map (a.setSlack a.alerts)

/-- A step of the listener, of one of its monitors, or of `main`. -/
def processStep (setup : Setup) (a : Alerter capacity) (event : ProcessEvent) :
    Option (Alerter capacity) :=
  (a.process.step setup.env setup.eventEnv setup.stallAndReorg event).map a.setProcess

/-- One step of one task. Nothing happens after `main` has returned. -/
def step (setup : Setup) (a : Alerter capacity) (event : AlerterEvent) : Option (Alerter capacity) :=
  if a.process.exit.isSome then none
  else
    match event with
    | .process event => a.processStep setup event
    | .network event => some (a.networkStep event)
    | .recvSlot => a.recvSlot setup
    | .slotElapsed => (a.slotMonitor.step setup.slots .elapsed).map a.setSlotMonitor
    | .session result => a.slackStep setup (.session result)
    | .recvAlert => a.recvAlert setup
    | .posted result => a.slackStep setup (.posted result)
    | .joinSlots err =>
        (a.slotMonitor.status.joined err).bind fun result => a.processStep setup (.joinOther result)
    | .joinSlack err =>
        (a.slack.phase.joined err).bind fun result => a.processStep setup (.joinOther result)

end Alerter

end ChainAlerter
