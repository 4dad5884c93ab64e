import ChainAlerter.Model.Alerter
import ChainAlerter.Model.World

/-!
# `ChainAlerter.Model.Deployment`: the alerter and an honest node

`World` puts the block listener beside an honest node. Here all tasks of the alerter
are beside it. The node answers the listener as in `World`, and it answers the event
monitor with the events of the block that it asks for, or with an error. In between
the node may import blocks and change its best block, and the connections may be lost.

The tasks that do not ask the node make their steps as in `Alerter`.
-/

set_option autoImplicit false

namespace ChainAlerter

open ChainAlerter.Library

variable {env : Externals} {T : BlockTree env}

/-- The step is the answer to a request. -/
def AlerterEvent.isAnswer : AlerterEvent → Bool
  | .process (.listen _) => true
  | .process (.blockEvents _) => true
  | _ => false

/-- The alerter beside the node that it asks. The listener is the one of the
alerter's process. -/
structure Deployment (T : BlockTree env) (capacity : Nat) where
  node : Node T
  alerter : Alerter capacity

/-- The steps of a deployment.

- `world`: a step of the node, or of the listener with a reply of the node;
- `blockEvents`: the node answers the event monitor, or the request fails;
- `alerter`: a step of the alerter that answers no request. -/
inductive DeploymentEvent (T : BlockTree env) where
  | world (event : WorldEvent T)
  | blockEvents (result : Except SubxtError Unit)
  | alerter (event : AlerterEvent)

namespace Deployment

variable {capacity : Nat}

/-- The node and the listener. -/
def world (d : Deployment T capacity) : World T :=
  { node := d.node, listener := d.alerter.process.listener }

/-- Any node, and an alerter that starts. -/
def init (setup : Setup) {T : BlockTree setup.env} (node : Node T) : Deployment T capacity :=
  { node := node, alerter := .init setup }

/-- A step of the alerter. -/
def alert (setup : Setup) {T : BlockTree setup.env} (d : Deployment T capacity)
    (event : AlerterEvent) : Option (Deployment T capacity) :=
  (d.alerter.step setup event).map fun alerter => { d with alerter := alerter }

/-- One step. `eventsAt` are the events of each block. -/
def step (setup : Setup) {T : BlockTree setup.env} (eventsAt : BlockHash → List EventDetails)
    (d : Deployment T capacity) : DeploymentEvent T → Option (Deployment T capacity)
  | .world (.importBlock b newBest) =>
      (d.node.add b newBest).map fun node => { d with node := node }
  | .world (.setBest b) => (d.node.setBest b).map fun node => { d with node := node }
  | .world event => (d.world.reply? event).bind fun reply => d.alert setup (.process (.listen reply))
  | .blockEvents result =>
      match d.alerter.process.eventWatcher.phase with
      | .fetching block _ =>
          d.alert setup (.process (.blockEvents (result.map fun _ => eventsAt block.hash)))
      | _ => none
  | .alerter event => if event.isAnswer then none else d.alert setup event

end Deployment

end ChainAlerter
