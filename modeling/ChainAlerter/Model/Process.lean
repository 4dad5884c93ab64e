import ChainAlerter.Library.BroadcastChannel
import ChainAlerter.Model.Events
import ChainAlerter.Model.Listener
import ChainAlerter.Model.StallAndReorg

/-!
# `ChainAlerter.Model.Process`: the tasks around the broadcast channel

The part of `main` that spawns the block listener and the two monitors of its
messages. The listener sends to a broadcast channel, and each monitor has a
receiver of its own, which `main` subscribes before it spawns the listener. The
tasks run concurrently, so `Process.step` interleaves their steps in any order.

`main` waits in `join_next` for the first task of its join set to end, and
returns, which ends the process with all its tasks. The other tasks of the join
set (slots, slack, p2p network, uptime, runtime updates) appear only in that any
of them may end.
-/

set_option autoImplicit false

namespace ChainAlerter

open ChainAlerter.Library

/-- The monitors of the broadcast channel. -/
inductive Monitor where
  | stallAndReorg
  | events
  deriving DecidableEq, Repr

/-- The result of `stream.recv()`. -/
def recvResult : Received BlocksExt → Except RecvError BlocksExt
  | .message blocksExt => .ok blocksExt
  | .lagged skipped => .error (.lagged skipped)
  | .closed => .error .closed

/-- The tasks and the channel. For each monitor there is the position of its
receiver, and the messages that it has received, oldest first. `exit` is what `main`
has returned. -/
structure Process (capacity : Nat) where
  listener : Listener
  channel : BroadcastChannel BlocksExt capacity
  watcher : Watcher
  watcherNext : Nat
  watcherTaken : List BlocksExt
  eventWatcher : EventWatcher
  eventsNext : Nat
  eventsTaken : List BlocksExt
  exit : Option (Except Error Unit)

/-- The steps of the process.

- `listen`: the listener gets a reply, and may send;
- `recv`: a monitor receives from the channel;
- `elapsed`: the timeout of the stall and reorg monitor;
- `blockEvents`: the event monitor gets the events of a block;
- `joinListener`, `joinMonitor`: `main` joins a task that has ended. A panic arrives as the
  error of the join;
- `joinOther`: `main` joins another task. -/
inductive ProcessEvent where
  | listen (reply : Reply)
  | recv (monitor : Monitor)
  | elapsed
  | blockEvents (answer : Except SubxtError (List EventDetails))
  | joinListener (err : ForeignError)
  | joinMonitor (monitor : Monitor) (err : ForeignError)
  | joinOther (result : Except Error Unit)

/-- Whether the task of the listener has ended. -/
def Phase.isEnd : Phase → Bool
  | .returned _ => true
  | .panicked => true
  | _ => false

/-- The result of joining a task, `none` while the task runs. -/
def Phase.joined (err : ForeignError) : Phase → Option (Except Error Unit)
  | .returned e => some (.error e)
  | .panicked => some (.error (.join err))
  | _ => none

/-- What `main` finds when it joins a monitor with a status, once this has ended. -/
@[inherit_doc Phase.joined]
def WatchStatus.joined (err : ForeignError) : WatchStatus → Option (Except Error Unit)
  | .returned e => some (.error e)
  | .panicked => some (.error (.join err))
  | .running => none

/-- What `main` finds when it joins the event monitor, once this has ended. -/
@[inherit_doc Phase.joined]
def EventsPhase.joined (err : ForeignError) : EventsPhase → Option (Except Error Unit)
  | .returned e => some (.error e)
  | .panicked => some (.error (.join err))
  | _ => none

namespace Process

variable {capacity : Nat}

/-- The start: both receivers are subscribed, and nothing has been sent. -/
def init (eventEnv : EventExternals) (accounts : List Account) : Process capacity :=
  { listener := .init, channel := .empty, watcher := .init, watcherNext := 0, watcherTaken := []
    eventWatcher := .init eventEnv accounts, eventsNext := 0, eventsTaken := [], exit := none }

/-- A step of the listener. What it sends goes to the channel, and when it ends the
sender is dropped. -/
def listen (env : Externals) (p : Process capacity) (reply : Reply) : Option (Process capacity) := do
  let listener ← p.listener.step env reply
  -- The messages that this step has sent.
  let channel := p.channel.sendAll (listener.sent.drop p.listener.sent.length)
  return { p with
    listener := listener
    channel := if listener.phase.isEnd then channel.close else channel }

/-- A monitor receives. -/
def recv (eventEnv : EventExternals) (config : StallAndReorgConfig) (p : Process capacity) :
    Monitor → Option (Process capacity)
  | .stallAndReorg => do
      let (received, next) ← p.channel.recv p.watcherNext
      let watcher ← p.watcher.step config (.recv (recvResult received))
      return { p with
        watcher := watcher, watcherNext := next
        watcherTaken := p.watcherTaken ++ received.message?.toList }
  | .events => do
      let (received, next) ← p.channel.recv p.eventsNext
      let eventWatcher ← p.eventWatcher.step eventEnv (.recv (recvResult received))
      return { p with
        eventWatcher := eventWatcher, eventsNext := next
        eventsTaken := p.eventsTaken ++ received.message?.toList }

/-- The result of a monitor that has ended. -/
def monitorJoined (p : Process capacity) (err : ForeignError) : Monitor → Option (Except Error Unit)
  | .stallAndReorg => p.watcher.status.joined err
  | .events => p.eventWatcher.phase.joined err

/-- One step of one task. Nothing happens after `main` has returned. -/
def step (env : Externals) (eventEnv : EventExternals) (config : StallAndReorgConfig)
    (p : Process capacity) (event : ProcessEvent) : Option (Process capacity) :=
  -- The runtime drops all tasks with `main`.
  if p.exit.isSome then none
  else
    match event with
    | .listen reply => p.listen env reply
    | .recv monitor => p.recv eventEnv config monitor
    | .elapsed => (p.watcher.step config .elapsed).map fun watcher => { p with watcher := watcher }
    | .blockEvents answer =>
        (p.eventWatcher.step eventEnv (.events answer)).map
          fun eventWatcher => { p with eventWatcher := eventWatcher }
    | .joinListener err =>
        (p.listener.phase.joined err).map fun result => { p with exit := some result }
    | .joinMonitor monitor err =>
        (p.monitorJoined err monitor).map fun result => { p with exit := some result }
    | .joinOther result => some { p with exit := some result }

/-! ### What is observed of a monitor -/

/-- The messages that a monitor has received. -/
def taken (p : Process capacity) : Monitor → List BlocksExt
  | .stallAndReorg => p.watcherTaken
  | .events => p.eventsTaken

/-- The receiver of the monitor has fallen behind: the message at its position
was overwritten. -/
def Behind (p : Process capacity) : Monitor → Prop
  | .stallAndReorg => p.watcherNext < p.channel.dropped
  | .events => p.eventsNext < p.channel.dropped

/-- The monitor waits for a message. -/
def Waits (p : Process capacity) : Monitor → Prop
  | .stallAndReorg => p.watcher.status = .running
  | .events => p.eventWatcher.phase = .waiting

/-- The error that a monitor has returned. -/
def Returned (p : Process capacity) (err : Error) : Monitor → Prop
  | .stallAndReorg => p.watcher.status = .returned err
  | .events => p.eventWatcher.phase = .returned err

end Process

end ChainAlerter
