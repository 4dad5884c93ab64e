import ChainAlerter.Model.Startup

/-!
# `ChainAlerter.Model.Main`: `main` from its start to its return

`main` of `alerter/src/main.rs` as a state machine. It asks the node for the details of
its network, reads the network configuration and the Slack secret, and then spawns the
monitors, the listener, the network task and the Slack task. From there on it waits in
`join_next` for the first task to end, and returns its result.

The runtime updates are spawned before the Slack secret is read, so they may end while
`main` still starts. What they do is in `subxt`, and an event says how they end. The
uptime pushes of `alerter/src/uptime.rs` run only when an URL is given.

`Alerter` has all other tasks. Its `joinOther` happens here as the join of the updates or
of the pushes.
-/

set_option autoImplicit false

namespace ChainAlerter

open ChainAlerter.Library

/-! ### The uptime pushes -/

/-- Where `push_uptime_status` is: before the client is built, waiting for a tick or for
the answer to a request, or at its end. -/
inductive UptimePhase where
  | building
  | ticking
  | sending
  | returned (err : Error)
  | panicked
  deriving DecidableEq, Repr

/-- The task, and the URLs that it has called, oldest first. -/
structure UptimeTask where
  phase : UptimePhase
  pushed : List String
  deriving DecidableEq, Repr

/-- What the task waits for. An answer says whether its status is a success. -/
inductive UptimeEvent where
  | client (result : Except ForeignError Unit)
  | tick
  | answer (result : Except ForeignError Bool)

namespace UptimeTask

/-- `tokio::time::interval` panics at a period of zero. -/
def init (every : Nat) : UptimeTask :=
  { phase := if every = 0 then .panicked else .building, pushed := [] }

/-- The URL of a push, with the interval in milliseconds as its ping. -/
def formattedUrl (url : String) (every : Nat) : String :=
  url ++ "?status=up&msg=Ok&ping=" ++ toString (every / 1000000)

/-- One step of `push_uptime_status`. -/
def step (url : String) (every : Nat) (task : UptimeTask) (event : UptimeEvent) :
    Option UptimeTask :=
  match task.phase, event with
  | .building, .client (.ok ()) => some { task with phase := .ticking }
  | .building, .client (.error _) => some { task with phase := .panicked }
  | .ticking, .tick =>
      some { phase := .sending, pushed := task.pushed ++ [formattedUrl url every] }
  -- An answer without success is logged.
  | .sending, .answer (.ok _) => some { task with phase := .ticking }
  | .sending, .answer (.error err) => some { task with phase := .returned (.reqwest err) }
  | _, _ => none

end UptimeTask

/-! ### The tasks of the join set -/

/-- A task of which only the end is modelled. -/
inductive TaskStatus where
  | running
  | returned (result : Except Error Unit)
  | panicked

/-- What `main` finds when it joins the task, once this has ended. This one can return
without an error. -/
@[inherit_doc Phase.joined]
def TaskStatus.joined (err : ForeignError) : TaskStatus → Option (Except Error Unit)
  | .running => none
  | .returned result => some result
  | .panicked => some (.error (.join err))

/-- What `main` finds when it joins the push task, once this has ended. -/
@[inherit_doc Phase.joined]
def UptimePhase.joined (err : ForeignError) : UptimePhase → Option (Except Error Unit)
  | .returned e => some (.error e)
  | .panicked => some (.error (.join err))
  | _ => none

/-! ### `main` -/

/-- Where `main` waits while it starts.

- `rpcClient`, `client`: in `Subspace::new_from_url`;
- `systemChain`, `systemProperties`, `genesisHash`: in `network_details`;
- `secretMetadata`, `secretFile`: in `SlackSecret::new`. -/
inductive StartPhase where
  | rpcClient
  | client
  | systemChain
  | systemProperties (name : String)
  | genesisHash (name : String) (systemProperties : SystemProperties)
  | secretMetadata (details : NetworkDetails) (network : NetworkConfig)
  | secretFile (details : NetworkDetails) (network : NetworkConfig)

/-- What `main` waits for while it starts. With the genesis hash come the network
configuration and the swarm, which are made without a wait, and with the secret the time
at which the tasks start. -/
inductive StartEvent where
  | rpcClient (result : Except ForeignError Unit)
  | client (result : Except SubxtError Unit)
  | systemChain (result : Except SubxtRpcsError String)
  | systemProperties (result : Except SubxtRpcsError SystemProperties)
  | genesisHash (result : Except SubxtRpcsError (Option BlockHash))
      (file : Except ForeignError String) (swarm : Except ForeignError Unit)
  | secretMetadata (result : Except ForeignError UInt32)
  | secretFile (result : Except ForeignError String) (start : Instant)

/-- `main` starts, runs with its tasks, or has ended before they were spawned. The
result of a `main` with tasks is the `exit` of its alerter. -/
inductive MainPhase (capacity : Nat) where
  | start (phase : StartPhase)
  | running (setup : Setup) (secret : SlackSecret) (uptime : Option UptimeTask)
      (alerter : Alerter capacity)
  | returned (err : Error)
  | panicked (reason : String)

/-- The state of `main`. `updates` are the runtime updates, once they are spawned. -/
structure Main (capacity : Nat) where
  phase : MainPhase capacity
  updates : Option TaskStatus

/-- The steps of `main` and its tasks. `updates` is the end of the runtime updates,
without a result when they panic. -/
inductive MainEvent where
  | start (event : StartEvent)
  | updates (result : Option (Except SubxtError Unit))
  | uptime (event : UptimeEvent)
  | alerter (event : AlerterEvent)
  | joinUpdates (err : ForeignError)
  | joinUptime (err : ForeignError)

/-- The step is the join of a task that is not in `Alerter`. -/
def AlerterEvent.isJoinOther : AlerterEvent → Bool
  | .process (.joinOther _) => true
  | _ => false

/-- The tasks of `Alerter`. The network task is not one of them, since it never ends. -/
inductive AlerterTask where
  | listener
  | monitor (which : Monitor)
  | slots
  | slack
  deriving DecidableEq, Repr

/-- The result of joining a task, `none` while the task runs. -/
def Alerter.joined {capacity : Nat} (a : Alerter capacity) (err : ForeignError) :
    AlerterTask → Option (Except Error Unit)
  | .listener => a.process.listener.phase.joined err
  | .monitor which => a.process.monitorJoined err which
  | .slots => a.slotMonitor.status.joined err
  | .slack => a.slack.phase.joined err

/-- `join_next` returns this task. -/
def AlerterTask.join (err : ForeignError) : AlerterTask → AlerterEvent
  | .listener => .process (.joinListener err)
  | .monitor which => .process (.joinMonitor which err)
  | .slots => .joinSlots err
  | .slack => .joinSlack err

/-- The tasks of the join set. -/
inductive Task where
  | updates
  | uptime
  | alerter (task : AlerterTask)
  deriving DecidableEq, Repr

/-- The step in which `main` joins the task. -/
@[inherit_doc AlerterTask.join]
def Task.join (err : ForeignError) : Task → MainEvent
  | .updates => .joinUpdates err
  | .uptime => .joinUptime err
  | .alerter task => .alerter (task.join err)

namespace Main

variable {capacity : Nat}

/-- `main` starts with the connection to the node. -/
def init : Main capacity := { phase := .start .rpcClient, updates := none }

/-- The result of `main`, once it has returned. -/
def exit (m : Main capacity) : Option (Except Error Unit) :=
  match m.phase with
  | .returned err => some (.error err)
  | .running _ _ _ alerter => alerter.process.exit
  | _ => none

/-- A `?` of `main`. -/
def orReturn {α : Type} (m : Main capacity) (result : Except Error α) (next : α → Main capacity) :
    Main capacity :=
  match result with
  | .ok a => next a
  | .error err => { m with phase := .returned err }

/-- The wait after this one. -/
def waitFor (m : Main capacity) (phase : StartPhase) : Main capacity :=
  { m with phase := .start phase }

/-- From the genesis hash to the permissions of the secret. -/
def configure (externals : MainExternals) (m : Main capacity) (name : String)
    (systemProperties : SystemProperties) (genesisHash : BlockHash)
    (file : Except ForeignError String) (swarm : Except ForeignError Unit) : Main capacity :=
  let prepared : Except Error (NetworkDetails × NetworkConfig) := do
    let details ← networkDetails name systemProperties genesisHash
    let networks ← loadNetworksConfig externals file
    let network ← networkConfig networks details
    -- `Network::new`.
    swarm.mapError Error.io
    return (details, network)
  m.orReturn prepared fun (details, network) =>
    { phase := .start (.secretMetadata details network), updates := some .running }

/-- All tasks are spawned. -/
def spawn (externals : MainExternals) (config : Config) (m : Main capacity)
    (details : NetworkDetails) (network : NetworkConfig) (secret : SlackSecret) (start : Instant) :
    Main capacity :=
  let setup := config.setup externals details network start
  { m with
    phase := .running setup secret
      (config.uptimekuma.uptimekumaUrl.map fun _ => .init config.uptimekuma.uptimekumaInterval)
      (.init setup) }

/-- `main` from one of its first waits to the next. -/
def startStep (externals : MainExternals) (config : Config) (m : Main capacity) (phase : StartPhase)
    (event : StartEvent) : Option (Main capacity) :=
  match phase, event with
  | .rpcClient, .rpcClient result =>
      some (m.orReturn (result.mapError Error.rpc) fun _ => m.waitFor .client)
  | .client, .client result =>
      some (m.orReturn (result.mapError Error.fromSubxt) fun _ => m.waitFor .systemChain)
  | .systemChain, .systemChain result =>
      some (m.orReturn (result.mapError Error.fromSubxtRpcs) fun name =>
        m.waitFor (.systemProperties name))
  | .systemProperties name, .systemProperties result =>
      some (m.orReturn (result.mapError Error.fromSubxtRpcs) fun systemProperties =>
        m.waitFor (.genesisHash name systemProperties))
  | .genesisHash name systemProperties, .genesisHash result file swarm =>
      some (m.orReturn (result.mapError Error.fromSubxtRpcs) fun
        | some genesisHash => m.configure externals name systemProperties genesisHash file swarm
        | none => { m with phase := .panicked "Block hash always exists" })
  | .secretMetadata details network, .secretMetadata result =>
      some (m.orReturn (result.mapError Error.io) fun mode =>
        if isPrivate mode then m.waitFor (.secretFile details network)
        else { m with phase := .panicked (permissionPanic config.slack.slackSecretPath mode) })
  | .secretFile details network, .secretFile result start =>
      some (m.orReturn (result.mapError Error.io) fun content =>
        m.orReturn (slackSecret config.slack.slackTeamId content) fun secret =>
          m.spawn externals config details network secret start)
  | _, _ => none

/-- The end of the runtime updates, once they are spawned. -/
def endUpdates (m : Main capacity) (result : Option (Except SubxtError Unit)) :
    Option (Main capacity) :=
  match m.updates with
  | some .running =>
      some { m with
        updates := some
          (match result with
          | some result => .returned (result.mapError Error.fromSubxt)
          | none => .panicked) }
  | _ => none

/-- A step of `main` or of one of its tasks. Nothing happens after `main` has returned. -/
def step (externals : MainExternals) (config : Config) (m : Main capacity) (event : MainEvent) :
    Option (Main capacity) :=
  if m.exit.isSome then none
  else
    match m.phase, event with
    | .panicked _, _ => none
    | .start phase, .start event => m.startStep externals config phase event
    | _, .updates result => m.endUpdates result
    | .running setup secret (some uptime) alerter, .uptime event => do
        let url ← config.uptimekuma.uptimekumaUrl
        let uptime ← uptime.step url config.uptimekuma.uptimekumaInterval event
        return { m with phase := .running setup secret (some uptime) alerter }
    | .running setup secret uptime alerter, .alerter event =>
        if event.isJoinOther then none
        else (alerter.step setup event).map fun alerter =>
          { m with phase := .running setup secret uptime alerter }
    | .running setup secret uptime alerter, .joinUpdates err => do
        let result ← m.updates.bind (TaskStatus.joined err)
        let alerter ← alerter.step setup (.process (.joinOther result))
        return { m with phase := .running setup secret uptime alerter }
    | .running setup secret (some uptime) alerter, .joinUptime err => do
        let result ← uptime.phase.joined err
        let alerter ← alerter.step setup (.process (.joinOther result))
        return { m with phase := .running setup secret (some uptime) alerter }
    | _, _ => none

/-- The result of joining a task, `none` while the task runs. -/
def joined (m : Main capacity) (err : ForeignError) (task : Task) : Option (Except Error Unit) :=
  match m.phase, task with
  | .running _ _ _ _, .updates => m.updates.bind (TaskStatus.joined err)
  | .running _ _ uptime _, .uptime => uptime.bind fun task => task.phase.joined err
  | .running _ _ _ alerter, .alerter task => alerter.joined err task
  | _, _ => none

end Main

end ChainAlerter
