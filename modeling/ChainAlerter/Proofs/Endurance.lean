import ChainAlerter.Proofs.CatchUp
import ChainAlerter.Proofs.Supervision
import ChainAlerter.Proofs.Survival

/-!
# `ChainAlerter.Proofs.Endurance`: how long the alerter runs

`main` returns with the first task that ends, so the alerter runs as long as all of its
tasks do. `alerter_endures` says that they do in every run beside an honest node in which
nothing goes wrong outside: no connection is lost and no request fails, the node's best
chain reaches up to each number that the listener asks for, no receiver has fallen behind
when it receives, and the Slack session opens. `Benign` is this condition on one step.

`Endures` has what ends a task without a panic, and its step lemma is the main part.
That no task panics is `Proofs.NoPanics`.
-/

set_option autoImplicit false

namespace ChainAlerter

open ChainAlerter.Library
open ChainAlerter.Abstract

/-! ### Steps that end no task -/

/-- A message does not make the stall and reorg monitor return. -/
theorem Watcher.not_returned_of_recv {config : StallAndReorgConfig} {w w' : Watcher}
    {blocksExt : BlocksExt} (h : w.step config (.recv (.ok blocksExt)) = some w') (err : Error) :
    w'.status ≠ .returned err := by
  cases (step_round h).2 with
  | block _ latest hlast hstatus hbest hstall => simp [hstatus]
  | empty _ hlast => simp

/-- A timeout does not end the stall and reorg monitor. -/
theorem Watcher.not_returned_of_elapsed {config : StallAndReorgConfig} {w w' : Watcher}
    (h : w.step config .elapsed = some w') (err : Error) : w'.status ≠ .returned err := by
  obtain ⟨hrunning, hround⟩ := step_round h
  cases hround
  show w.status ≠ .returned err
  simp [hrunning]

/-- A message does not end the event monitor. Only the events of a block can, or an
error of the channel. -/
theorem EventWatcher.not_returned_of_recv {env : EventExternals} {w w' : EventWatcher}
    {blocksExt : BlocksExt} (h : w.step env (.recv (.ok blocksExt)) = some w') (err : Error) :
    w'.phase ≠ .returned err := by
  unfold EventWatcher.step at h
  split at h
  · cases h
    rename_i hreply
    cases hreply
    cases blocksExt.blocks <;> simp [watchBlocks]
  · rename_i hreply
    cases hreply
  · rename_i hreply
    cases hreply
  · rename_i hreply
    cases hreply
  · cases h

/-- A proof does not make the slot monitor return. It may make it panic, which
is another end. -/
theorem SlotMonitor.not_returned_of_recv {config : SlotsConfig} {m m' : SlotMonitor}
    {info : PoTInfo}
    (h : m.step config (.recv (.ok info)) = some m') (err : Error) : m'.status ≠ .returned err := by
  obtain ⟨hrunning, hround⟩ := step_round h
  cases hround with
  | first _ hlast =>
      show m.status ≠ .returned err
      simp [hrunning]
  | «extends» _ last hlast hnext =>
      rw [extend]
      split
      · simp [panic]
      · show m.status ≠ .returned err
        simp [hrunning]
  | rejects _ last hlast hnext hmax => simp [hrunning]
  | overflows _ last hlast hmax => simp [panic]

/-- A timeout does not end the slot monitor. -/
theorem SlotMonitor.not_returned_of_elapsed {config : SlotsConfig} {m m' : SlotMonitor}
    (h : m.step config .elapsed = some m') (err : Error) : m'.status ≠ .returned err := by
  obtain ⟨hrunning, hround⟩ := step_round h
  cases hround
  show m.status ≠ .returned err
  simp [hrunning]

/-- The Slack task returns at a session that fails, and at a closed stream. A post that
fails is logged, and the task goes on. -/
theorem SlackTask.not_returned_of_step {env : FormatExternals} {config : FormatConfig}
    {slack : SlackAlerter} {task task' : SlackTask} {event : SlackEvent}
    (h : task.step env config slack event = some task')
    (hsession : ∀ err, event ≠ .session (.error err)) (hstream : event ≠ .recv none) (err : Error) :
    task'.phase ≠ .returned err := by
  unfold SlackTask.step at h
  split at h
  · cases h
    simp
  · exact absurd rfl (hsession _)
  · cases h
    unfold recvAlert
    split <;> simp
  · exact absurd rfl hstream
  · cases h
    simp
  · cases h

namespace Alerter

variable {capacity : Nat} {setup : Setup} {a a' : Alerter capacity}

/-- No task has returned, and neither channel of proofs and blocks is closed. -/
structure Endures (a : Alerter capacity) : Prop where
  exit : a.process.exit = none
  channel : a.process.channel.closed = false
  pots : a.pots.closed = false
  watcher : ∀ err, a.process.watcher.status ≠ .returned err
  eventWatcher : ∀ err, a.process.eventWatcher.phase ≠ .returned err
  slotMonitor : ∀ err, a.slotMonitor.status ≠ .returned err
  slack : ∀ err, a.slack.phase ≠ .returned err

/-- No receiver has fallen behind, the session opens, and no task of another crate ends. -/
def Benign (a : Alerter capacity) : AlerterEvent → Prop
  | .process (.recv monitor) => ¬ a.process.Behind monitor
  | .process (.joinOther _) => False
  | .recvSlot => ¬ a.slotsNext < a.pots.dropped
  | .session result => result.isOk = true
  | _ => True

instance (a : Alerter capacity) (event : AlerterEvent) : Decidable (a.Benign event) :=
  match event with
  | .process (.recv .stallAndReorg) =>
      inferInstanceAs (Decidable (¬ a.process.watcherNext < a.process.channel.dropped))
  | .process (.recv .events) =>
      inferInstanceAs (Decidable (¬ a.process.eventsNext < a.process.channel.dropped))
  | .process (.joinOther _) => isFalse id
  | .recvSlot => inferInstanceAs (Decidable (¬ a.slotsNext < a.pots.dropped))
  | .session result => inferInstanceAs (Decidable (result.isOk = true))
  | .process (.listen _) => isTrue trivial
  | .process .elapsed => isTrue trivial
  | .process (.blockEvents _) => isTrue trivial
  | .process (.joinListener _) => isTrue trivial
  | .process (.joinMonitor _ _) => isTrue trivial
  | .network _ => isTrue trivial
  | .slotElapsed => isTrue trivial
  | .recvAlert => isTrue trivial
  | .posted _ => isTrue trivial
  | .joinSlots _ => isTrue trivial
  | .joinSlack _ => isTrue trivial

/-- At the start all tasks run and both channels are open. -/
theorem endures_init : (init setup : Alerter capacity).Endures where
  exit := rfl
  channel := rfl
  pots := rfl
  watcher err := by simp [init, Process.init, Watcher.init]
  eventWatcher err := by
    simp only [init, Process.init, EventWatcher.init]
    split <;> simp
  slotMonitor err := by simp [init, SlotMonitor.init]
  slack err := by simp [init, SlackTask.init]

/-- A channel of blocks is closed only when the listener ends. -/
theorem closed_of_listen {env : Externals} {p p' : Process capacity} {reply : Reply}
    (h : p.listen env reply = some p') (hopen : p.channel.closed = false)
    (hlistener : p'.listener.phase.isEnd = false) : p'.channel.closed = false := by
  simp only [Process.listen, Option.bind_eq_bind, Option.bind_eq_some_iff] at h
  obtain ⟨listener, -, hp'⟩ := h
  cases hp'
  have hlistener : listener.phase.isEnd = false := hlistener
  simp [hlistener, BroadcastChannel.closed_sendAll, hopen]

/-- The proofs that were gossiped are never taken back. -/
theorem step_sent_initial {event : AlerterEvent} (h : a.step setup event = some a') :
    a.network.sent <+: a'.network.sent := by
  cases (step_moves h).2 with
  | network event =>
      show a.network.sent <+: (a.network.round event).sent
      rw [(Network.round_sent_dialed a.network event).1]
      exact List.prefix_append _ _
  | _ => exact List.prefix_rfl

/-- While all tasks run, `main` joins none. A join of a task that runs has no result, so
such a step does not exist. -/
theorem exit_of_step {event : AlerterEvent} (hjoined : ∀ task err, a.joined err task = none)
    (hbenign : a.Benign event) (hstep : a.step setup event = some a') : a'.process.exit = none := by
  cases step_exits hstep with
  | waits _ _ hexit => exact hexit
  | joins task err result hsome =>
      rw [hjoined task err] at hsome
      cases hsome
  | other result => exact hbenign.elim

/-- One step keeps all tasks running, if the listener has not ended and the events of a
block could be read. A receiver that is not behind gets a message and not an error, and
the Slack task keeps its session. With no task ended, `main` joins none. -/
theorem Endures.step {event : AlerterEvent} (h : a.Endures)
    (hjoined : ∀ task err, a.joined err task = none) (hbenign : a.Benign event)
    (hstep : a.step setup event = some a') (hlistener : a'.process.listener.phase.isEnd = false)
    (hanswer : ∀ answer, event = .process (.blockEvents answer) →
      ∀ err, a'.process.eventWatcher.phase ≠ .returned err) : a'.Endures := by
  have hexit := exit_of_step hjoined hbenign hstep
  cases (step_moves hstep).2 with
  | process event process hprocess =>
      cases Process.step_moves hprocess with
      | listen reply listener hlisten channel hchannel =>
          have hlisten : a.process.listen setup.env reply =
              some { a.process with listener := listener, channel := channel } := by
            simpa [Process.step, h.exit] using hprocess
          exact { h with
            exit := hexit
            channel := closed_of_listen hlisten h.channel hlistener }
      | watcherRecv received next watcher hrecv hwatcher =>
          obtain ⟨blocksExt, rfl⟩ :=
            BroadcastChannel.exists_message_of_recv h.channel hbenign hrecv
          exact { h with exit := hexit, watcher := Watcher.not_returned_of_recv hwatcher }
      | eventsRecv received next eventWatcher hrecv hwatcher =>
          obtain ⟨blocksExt, rfl⟩ :=
            BroadcastChannel.exists_message_of_recv h.channel hbenign hrecv
          exact { h with
            exit := hexit
            eventWatcher := EventWatcher.not_returned_of_recv hwatcher }
      | elapsed watcher hwatcher =>
          exact { h with exit := hexit, watcher := Watcher.not_returned_of_elapsed hwatcher }
      | blockEvents answer eventWatcher hwatcher =>
          exact { h with exit := hexit, eventWatcher := hanswer answer rfl }
      | returns event hjoin result => exact { h with exit := hexit }
  | network event =>
      have hpots : (a.networkStep event).pots.closed = false := by
        rw [networkStep, BroadcastChannel.closed_sendAll, h.pots]
      exact { h with exit := hexit, pots := hpots }
  | recvSlot received next slotMonitor hrecv hslot =>
      obtain ⟨info, rfl⟩ := BroadcastChannel.exists_message_of_recv h.pots hbenign hrecv
      exact { h with exit := hexit, slotMonitor := SlotMonitor.not_returned_of_recv hslot }
  | slotElapsed slotMonitor hslot =>
      exact { h with exit := hexit, slotMonitor := SlotMonitor.not_returned_of_elapsed hslot }
  | session result slack hslack =>
      have hok : result.isOk = true := hbenign
      have hopens : ∀ err, SlackEvent.session result ≠ .session (.error err) := by
        intro err heq
        cases heq
        cases hok
      exact { h with
        exit := hexit
        slack := SlackTask.not_returned_of_step hslack hopens (by simp) }
  | recvAlert alert queue slack hqueue hslack =>
      exact { h with
        exit := hexit
        slack := SlackTask.not_returned_of_step hslack (by simp) (by simp) }
  | posted result slack hslack =>
      exact { h with
        exit := hexit
        slack := SlackTask.not_returned_of_step hslack (by simp) (by simp) }
  | joinSlots err result hslots => cases hexit
  | joinSlack err result hslack => cases hexit

end Alerter

/-! ### A task that has neither returned nor panicked runs -/

/-- A listener that has neither returned nor panicked is not joined. -/
theorem Phase.joined_eq_none {phase : Phase} (hreturned : ∀ err, phase ≠ .returned err)
    (hpanicked : phase ≠ .panicked) (err : ForeignError) : phase.joined err = none := by
  cases phase with
  | returned e => exact absurd rfl (hreturned e)
  | panicked => exact absurd rfl hpanicked
  | _ => rfl

/-- Nor does it count as ended. -/
theorem Phase.isEnd_eq_false {phase : Phase} (hreturned : ∀ err, phase ≠ .returned err)
    (hpanicked : phase ≠ .panicked) : phase.isEnd = false := by
  cases phase with
  | returned e => exact absurd rfl (hreturned e)
  | panicked => exact absurd rfl hpanicked
  | _ => rfl

/-- The same for the monitors with a status. -/
theorem WatchStatus.joined_eq_none {status : WatchStatus}
    (hreturned : ∀ err, status ≠ .returned err) (hpanicked : status ≠ .panicked)
    (err : ForeignError) : status.joined err = none := by
  cases status with
  | returned e => exact absurd rfl (hreturned e)
  | panicked => exact absurd rfl hpanicked
  | running => rfl

/-- The same for the event monitor. -/
theorem EventsPhase.joined_eq_none {phase : EventsPhase} (hreturned : ∀ err, phase ≠ .returned err)
    (hpanicked : phase ≠ .panicked) (err : ForeignError) : phase.joined err = none := by
  cases phase with
  | returned e => exact absurd rfl (hreturned e)
  | panicked => exact absurd rfl hpanicked
  | _ => rfl

/-- The same for the Slack task. -/
theorem SlackPhase.joined_eq_none {phase : SlackPhase} (hreturned : ∀ err, phase ≠ .returned err)
    (hpanicked : phase ≠ .panicked) (err : ForeignError) : phase.joined err = none := by
  cases phase with
  | returned e => exact absurd rfl (hreturned e)
  | panicked => exact absurd rfl hpanicked
  | _ => rfl

namespace Deployment

section
variable {capacity : Nat} {env : Externals} {T : BlockTree env}

/-- Nothing goes wrong outside of the alerter in this step: no connection is lost,
the node answers the requests, and the numbers that the listener asks for are within
its best chain. -/
def Benign (d : Deployment T capacity) : DeploymentEvent T → Prop
  | .world event => asksWithinTip d.world event = true ∧ event.isLoss = false
  | .blockEvents result => result.isOk = true
  | .alerter event => d.alerter.Benign event

instance decidableBenign (d : Deployment T capacity) (event : DeploymentEvent T) :
    Decidable (d.Benign event) :=
  match event with
  | .world event =>
      inferInstanceAs (Decidable (asksWithinTip d.world event = true ∧ event.isLoss = false))
  | .blockEvents result => inferInstanceAs (Decidable (result.isOk = true))
  | .alerter event => inferInstanceAs (Decidable (d.alerter.Benign event))

/-- The gossip comes in the order of its times, for slots that have a next one. -/
structure Orderly (d : Deployment T capacity) : Prop where
  order : InOrder d.alerter.network.sent
  slots : ∀ info ∈ d.alerter.network.sent, info.proof.slot.toNat + 1 ≠ 2 ^ 64

end

variable {capacity : Nat} {setup : Setup} {T : BlockTree setup.env}
  {eventsAt : BlockHash → List EventDetails} {d d' : Deployment T capacity} {node : Node T}
  {events : List (DeploymentEvent T)}

/-- In a benign run the listener does not return. Its world is connected and fails no
request, and each number that it asks for is within the best chain, so the listener
survives by the result on worlds. -/
theorem listener_endures (hlaw : setup.env.Lawful T)
    (hbenign : AllSteps (step setup eventsAt) Benign
      (init setup node : Deployment T capacity) events)
    (hrun : run (step setup eventsAt) (init setup node) events = some d) (err : Error) :
    d.alerter.process.listener.phase ≠ .returned err := by
  have hworld : run World.step (World.init node) (events.filterMap worldEvent?) = some d.world :=
    shows_world.run events _ d hrun
  have hall : AllSteps World.step (fun w e => asksWithinTip w e = true ∧ e.isLoss = false)
      (World.init node) (events.filterMap worldEvent?) := by
    refine shows_world.allSteps events _ d hrun (hbenign.imp fun d event h e he => ?_)
    cases event with
    | world event =>
        cases he
        exact h
    | _ => cases he
  have halive : d.world.Alive := by
    refine run_invariant_of_allSteps ?_ _ (World.init node) d.world
      ⟨.detached, tracks_init, trivial⟩ hall hworld
    rintro w e w' ⟨s, htracks, hlive⟩ ⟨htip, hconnected⟩ hstep
    have hlive' := World.step_live hlaw htracks hlive hconnected htip hstep
    cases World.step_moves hlaw htracks hstep with
    | ofNode _ htracks' => exact ⟨s, htracks', hlive'⟩
    | ofListener _ _ _ s' _ _ htracks' => exact ⟨s', htracks', hlive'⟩
  obtain ⟨s, -, hlive⟩ := halive
  intro hreturned
  have hreturned : d.world.listener.phase = .returned err := hreturned
  rw [hreturned] at hlive
  exact hlive

/-- Gossip that was sent stays sent. -/
theorem step_sent_initial {event : DeploymentEvent T} (h : d.step setup eventsAt event = some d') :
    d.alerter.network.sent <+: d'.alerter.network.sent := by
  cases step_moves h with
  | node event node hstep => exact List.prefix_rfl
  | listen event reply alerter hreply hstep => exact Alerter.step_sent_initial hstep
  | blockEvents result block rest alerter hphase hstep => exact Alerter.step_sent_initial hstep
  | alerter event alerter hanswer hstep => exact Alerter.step_sent_initial hstep

/-- Conditions on the gossip so far hold before a step if they hold after it, since
gossip is only added. -/
theorem Orderly.before (h : Orderly d') {event : DeploymentEvent T}
    (hstep : d.step setup eventsAt event = some d') : Orderly d :=
  ⟨h.order.sublist (step_sent_initial hstep).sublist,
    fun info hinfo => h.slots info ((step_sent_initial hstep).subset hinfo)⟩

section
variable (hlaw : setup.env.Lawful T)
  (haddresses : ∀ account ∈ setup.accounts, setup.eventEnv.accountIdFromStr account.address ≠ none)
  (hread : ∀ hash, blockReadable setup.eventEnv setup.accounts (.ok (eventsAt hash)) = true)
  (hformat : FormatsTransfers setup eventsAt)

include hlaw haddresses hformat in
/-- With no task returned and none panicked, there is nothing to join. The panics are
ruled out by the conditions on configuration and gossip. -/
theorem joined_eq_none (hrun : run (step setup eventsAt) (init setup node) events = some d)
    (hlistener : ∀ err, d.alerter.process.listener.phase ≠ .returned err) (h : d.alerter.Endures)
    (horderly : Orderly d) (task : AlerterTask) (err : ForeignError) :
    d.alerter.joined err task = none := by
  cases task with
  | listener => exact Phase.joined_eq_none hlistener (listener_not_panicked hlaw hrun) err
  | monitor which =>
      cases which with
      | stallAndReorg =>
          exact WatchStatus.joined_eq_none h.watcher (watcher_not_panicked hlaw hrun) err
      | events =>
          exact EventsPhase.joined_eq_none h.eventWatcher
            (eventWatcher_not_panicked haddresses hrun) err
  | slots =>
      exact WatchStatus.joined_eq_none h.slotMonitor
        (slotMonitor_not_panicked hrun horderly.order horderly.slots) err
  | slack => exact SlackPhase.joined_eq_none h.slack (slack_not_panicked hrun hformat) err

include hread in
/-- The answer for a block does not make the event monitor return, when it is the node's
and its events decode. -/
theorem eventWatcher_of_blockEvents
    (hrun : run (step setup eventsAt) (init setup node) events = some d)
    (hexit : d.alerter.process.exit = none) {block : BlockExt} {rest : List BlockExt}
    (hphase : d.alerter.process.eventWatcher.phase = .fetching block rest)
    (hstep : d.step setup eventsAt (.blockEvents (.ok ())) = some d') (err : Error) :
    d'.alerter.process.eventWatcher.phase ≠ .returned err := by
  obtain ⟨w, hw⟩ := exists_watchBlocks hrun (by rw [hphase]; rfl) hread block rest
  rw [step_blockEvents eventsAt hexit hphase, hw] at hstep
  cases hstep
  show (w.watchBlocks rest).phase ≠ .returned err
  intro hreturned
  have hrunning := isRunning_watchBlocks w rest
  rw [hreturned] at hrunning
  cases hrunning

include hlaw haddresses hread hformat in
/-- In a benign run all tasks go on. The induction is from the end, because what a step
needs (that no task was joined) comes from the state before it. -/
theorem run_endures
    (hbenign : AllSteps (step setup eventsAt) Benign
      (init setup node : Deployment T capacity) events)
    (hrun : run (step setup eventsAt) (init setup node) events = some d) (horderly : Orderly d) :
    d.alerter.Endures := by
  refine run_history (P := fun events d => AllSteps (step setup eventsAt) Benign
    (init setup node : Deployment T capacity) events → Orderly d → d.alerter.Endures)
    (fun _ _ => Alerter.endures_init) ?_ events d hrun hbenign horderly
  intro events d event d' hrun hbefore hstep hbenign horderly'
  obtain ⟨hearlier, hlast⟩ := allSteps_append_iff.mp hbenign
  have hnow : Benign d event := (hlast d hrun).1
  have horderly := horderly'.before hstep
  have h := hbefore hearlier horderly
  have hjoined := joined_eq_none hlaw haddresses hformat hrun
    (listener_endures hlaw hearlier hrun) h horderly
  -- The listener runs after the step as well, so its channel stays open.
  have hrun' : run (step setup eventsAt) (init setup node) (events ++ [event]) = some d' :=
    run_append_eq_some.mpr ⟨d, hrun, by rw [run_singleton]; exact hstep⟩
  have hlistener := Phase.isEnd_eq_false (listener_endures hlaw hbenign hrun')
    (listener_not_panicked hlaw hrun')
  cases step_moves hstep with
  | node event node hnode => exact h
  | listen event reply alerter hreply halerter =>
      exact h.step hjoined (by trivial) halerter hlistener fun answer heq => by cases heq
  | blockEvents result block rest alerter hphase halerter =>
      have hok : result.isOk = true := hnow
      cases result with
      | error err => cases hok
      | ok =>
          exact h.step hjoined (by trivial) halerter hlistener fun _ _ =>
            eventWatcher_of_blockEvents hread hrun h.exit hphase hstep
  | alerter event alerter hanswer halerter =>
      refine h.step hjoined hnow halerter hlistener fun answer heq => ?_
      rw [heq] at hanswer
      cases hanswer

end

end Deployment

/-- What it takes for the alerter to run on. Take a run beside an honest node, with any
interleaving of the tasks and any changes of the node's best block, in which no
connection is lost, no request fails, each number that the listener asks for is within
the node's best chain of that moment, no receiver has fallen behind when it receives,
the Slack session opens, and the runtime updates and the pushes do not end. Posts may
fail. Then `main` has not returned and no task has ended. The conditions on the
configuration, the chain and the gossip are those under which no task panics, and that
the events of the chain decode. -/
theorem alerter_endures (capacity : Nat) (setup : Setup) (T : BlockTree setup.env)
    (hlaw : setup.env.Lawful T) (henv : setup.formatEnv.Lawful)
    (haddresses : ∀ account ∈ setup.accounts,
      setup.eventEnv.accountIdFromStr account.address ≠ none)
    (hdecimals : setup.format.tokenDecimals.toNat ≤ 28) (eventsAt : BlockHash → List EventDetails)
    (hread : ∀ hash, blockReadable setup.eventEnv setup.accounts (.ok (eventsAt hash)) = true)
    (hamounts : ∀ hash transfer,
      .event (.transfer transfer) ∈
        blockAlerts setup.eventEnv setup.accounts (.ok (eventsAt hash)) →
      transfer.amount < 2 ^ 96)
    (node : Node T) (events : List (DeploymentEvent T)) (d : Deployment T capacity)
    (hbenign : AllSteps (Deployment.step setup eventsAt) Deployment.Benign
      (Deployment.init setup node : Deployment T capacity) events)
    (hrun : run (Deployment.step setup eventsAt) (Deployment.init setup node) events = some d)
    (horderly : Deployment.Orderly d) :
    d.alerter.process.exit = none ∧ ∀ task err, d.alerter.joined err task = none := by
  have hformat : FormatsTransfers setup eventsAt :=
    formatsTransfers_of_amounts henv hdecimals hamounts
  have hendures := Deployment.run_endures hlaw haddresses hread hformat hbenign hrun horderly
  exact ⟨hendures.exit, Deployment.joined_eq_none hlaw haddresses hformat hrun
    (Deployment.listener_endures hlaw hbenign hrun) hendures horderly⟩

/-- The chain grows, the block is handled, two slots are gossiped, and the timekeeper stalls. -/
def enduringEvents : List (DeploymentEvent forkTree) :=
  growthDeploymentEvents ++ (slotGossip 1 5 ++ slotGossip 2 6 ++
    [AlerterEvent.process (.recv .stallAndReorg), .slotElapsed,
      .posted (.error ⟨"rate limit"⟩)]).map .alerter

/-- All tasks run on, although the post has failed. -/
theorem alerter_endures_growth :
    ∃ d : Deployment forkTree 4,
      run (Deployment.step sampleSetup forkEventsAt) (Deployment.init sampleSetup forkNode)
        enduringEvents = some d ∧
      d.alerter.slack.requests.length = 1 ∧ d.alerter.process.exit = none ∧
      ∀ task err, d.alerter.joined err task = none := by
  have hstate : ((run (Deployment.step sampleSetup forkEventsAt)
      (Deployment.init sampleSetup forkNode : Deployment forkTree 4) enduringEvents).map fun d =>
        (d.alerter.slack.requests.length, d.alerter.network.sent)) =
      some (1, [potInfo 1 5, potInfo 2 6]) := by
    decide +kernel
  simp only [Option.map_eq_some_iff, Prod.mk.injEq] at hstate
  obtain ⟨d, hrun, hlength, hsent⟩ := hstate
  have hbenign : AllSteps (Deployment.step sampleSetup forkEventsAt) Deployment.Benign
      (Deployment.init sampleSetup forkNode : Deployment forkTree 4) enduringEvents :=
    @of_decide_eq_true _ (@decidableAllSteps _ _ _ _ Deployment.decidableBenign _ _)
      (by decide +kernel)
  obtain ⟨hexit, hjoined⟩ := alerter_endures 4 sampleSetup forkTree forkTree_lawful
    plainFormat_lawful (by decide) (by decide) forkEventsAt readable_forkEventsAt
    amount_forkEventsAt forkNode enduringEvents d hbenign hrun
    ⟨by rw [hsent]; decide, by rw [hsent]; decide⟩
  exact ⟨d, hrun, hlength, hexit, hjoined⟩

end ChainAlerter
