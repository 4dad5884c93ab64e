import ChainAlerter.Proofs.Delivery
import ChainAlerter.Proofs.Deployment

/-!
# `ChainAlerter.Proofs.PostedEvents`: the events that Slack shows

The event monitor asks the node for the events of each block that the listener has sent,
and the node answers with the events of that block, or not at all (`Answered`).

`posted_events_exact` is the result for every interleaving of the node and the tasks:
the event alerts that were posted are an initial segment of those of the blocks, in the
order in which the listener has sent them, and each of these blocks was on the node's
chain.
-/

set_option autoImplicit false

namespace ChainAlerter

open ChainAlerter.Library
open ChainAlerter.Abstract

/-! ### The answers of the node -/

/-- The alerts of blocks with these events. -/
def chainAlerts (setup : Setup) (eventsAt : BlockHash → List EventDetails)
    (blocks : List BlockExt) :
    List Alert :=
  blocks.flatMap fun block =>
    blockAlerts setup.eventEnv setup.accounts (.ok (eventsAt block.hash))

/-- Every address is valid if the map of the accounts could be built. One that is not
would have made the monitor panic before its first message. -/
theorem valid_of_accountMappedName {env : EventExternals} {accounts : List Account}
    {map : Finmap (fun _ : AccountId => Account)} (h : accountMappedName env accounts = some map) :
    ∀ account ∈ accounts, env.accountIdFromStr account.address ≠ none := by
  unfold accountMappedName at h
  generalize (∅ : Finmap (fun _ : AccountId => Account)) = start at h
  induction accounts generalizing start with
  | nil => intro account haccount; cases haccount
  | cons first accounts ih =>
      rw [List.foldlM_cons] at h
      obtain ⟨next, hnext, hrest⟩ := Option.bind_eq_some_iff.mp h
      obtain ⟨id, hid, -⟩ := Option.map_eq_some_iff.mp hnext
      intro account haccount
      rcases List.mem_cons.mp haccount with rfl | haccount
      · rw [hid]
        exact Option.some_ne_none id
      · exact ih next hrest account haccount

/-- The blocks that the monitor has received are those of the messages in its
trace, in their order. So the statement about a trace becomes one about the
messages that were sent. -/
theorem receivedBlocks_eq (trace : List EventsReply) :
    receivedBlocks trace = (trace.filterMap EventsReply.message?).flatMap BlocksExt.blocks := by
  induction trace with
  | nil => rfl
  | cons reply trace ih =>
      rw [receivedBlocks, List.flatMap_cons]
      cases reply with
      | recv result =>
          cases result with
          | ok blocksExt => exact congrArg (blocksExt.blocks ++ ·) ih
          | error err => exact ih
      | events answer => exact ih

section
variable {setup : Setup} {eventsAt : BlockHash → List EventDetails}
  {fetched : List (BlockExt × Except SubxtError (List EventDetails))}

/-- The alerts of the readable answers are the first ones of the blocks. After an answer
that cannot be read nothing more is sent. -/
theorem readable_alerts_initial (h : ∀ f ∈ fetched, Answers eventsAt f.1 f.2) :
    ((fetched.takeWhile fun f => blockReadable setup.eventEnv setup.accounts f.2).flatMap
        fun f => blockAlerts setup.eventEnv setup.accounts f.2) <+:
      chainAlerts setup eventsAt (fetched.map Prod.fst) := by
  induction fetched with
  | nil => exact List.prefix_rfl
  | cons f fetched ih =>
      obtain ⟨block, answer⟩ := f
      obtain ⟨hanswer, hrest⟩ := List.forall_mem_cons.mp h
      have hanswer : Answers eventsAt block answer := hanswer
      rcases hanswer with rfl | ⟨err, rfl⟩
      · rw [chainAlerts, List.map_cons, List.flatMap_cons, List.takeWhile_cons]
        split
        · rw [List.flatMap_cons]
          exact List.prefix_append_right_inj _ |>.mpr (ih hrest)
        · exact List.nil_prefix
      · -- The monitor reads nothing after an error.
        exact List.nil_prefix

/-- If all answers are readable, their alerts are those of the blocks. -/
theorem readable_alerts_eq (h : ∀ f ∈ fetched, Answers eventsAt f.1 f.2)
    (hread : ∀ f ∈ fetched, blockReadable setup.eventEnv setup.accounts f.2 = true) :
    ((fetched.takeWhile fun f => blockReadable setup.eventEnv setup.accounts f.2).flatMap
        fun f => blockAlerts setup.eventEnv setup.accounts f.2) =
      chainAlerts setup eventsAt (fetched.map Prod.fst) := by
  rw [List.takeWhile_eq_self_iff.mpr hread, chainAlerts, List.flatMap_map]
  refine List.flatMap_congr fun f hf => ?_
  rcases h f hf with hok | ⟨err, herr⟩
  · rw [hok]
  · -- An error is not readable.
    have hreadable := hread f hf
    rw [herr] at hreadable
    cases hreadable

end

namespace Alerter

variable {capacity : Nat} {setup : Setup} {a a' : Alerter capacity}

/-- What a step does to the event monitor. -/
inductive EventsStep (setup : Setup) (a a' : Alerter capacity) : AlerterEvent → Prop where
  | same (event : AlerterEvent) (hwatcher : a'.process.eventWatcher = a.process.eventWatcher)
      (htaken : a'.process.eventsTaken = a.process.eventsTaken) : EventsStep setup a a' event
  | recv (received : Received BlocksExt)
      (hstep : a.process.eventWatcher.step setup.eventEnv (.recv (recvResult received)) =
        some a'.process.eventWatcher)
      (htaken : a'.process.eventsTaken = a.process.eventsTaken ++ received.message?.toList) :
      EventsStep setup a a' (.process (.recv .events))
  | answer (answer : Except SubxtError (List EventDetails))
      (hstep : a.process.eventWatcher.step setup.eventEnv (.events answer) =
        some a'.process.eventWatcher)
      (htaken : a'.process.eventsTaken = a.process.eventsTaken) :
      EventsStep setup a a' (.process (.blockEvents answer))

/-- Every step of the alerter leaves the event monitor alone, brings it a message of the
channel, or answers its request for the events of a block. -/
theorem step_eventsStep {event : AlerterEvent} (h : a.step setup event = some a') :
    EventsStep setup a a' event := by
  cases (step_moves h).2 with
  | process event process hstep =>
      cases Process.step_moves hstep with
      | eventsRecv received next eventWatcher hrecv hwatcher => exact .recv received hwatcher rfl
      | blockEvents answer eventWatcher hwatcher => exact .answer answer hwatcher rfl
      | _ => exact .same _ rfl rfl
  | _ => exact .same _ rfl rfl

end Alerter

namespace Deployment

variable {capacity : Nat} {setup : Setup} {T : BlockTree setup.env}
  {eventsAt : BlockHash → List EventDetails} {d d' : Deployment T capacity}

/-- The state of the event monitor is that of a run of its own loop on the messages that
it has received, with answers of the node. -/
structure AsksNode (setup : Setup) {T : BlockTree setup.env}
    (eventsAt : BlockHash → List EventDetails)
    (d : Deployment T capacity) (trace : List EventsReply) : Prop where
  watched : EventWatcher.Watched setup.eventEnv setup.accounts trace d.alerter.process.eventWatcher
  taken : trace.filterMap EventsReply.message? = d.alerter.process.eventsTaken
  answered : Answered eventsAt trace

/-- The step of the alerter in a step of the deployment. The answer for a block is the
node's, or an error, for the very block that the monitor asks for. -/
theorem step_eventsStep {event : DeploymentEvent T} (h : d.step setup eventsAt event = some d') :
    (d'.alerter.process.eventWatcher = d.alerter.process.eventWatcher ∧
      d'.alerter.process.eventsTaken = d.alerter.process.eventsTaken) ∨
    ∃ event', Alerter.EventsStep setup d.alerter d'.alerter event' ∧
      ∀ answer block rest, event' = .process (.blockEvents answer) →
        d.alerter.process.eventWatcher.phase = .fetching block rest →
        Answers eventsAt block answer := by
  cases step_moves h with
  | node event node hstep => exact Or.inl ⟨rfl, rfl⟩
  | listen event reply alerter hreply hstep =>
      exact Or.inr ⟨_, Alerter.step_eventsStep hstep, fun _ _ _ heq => by cases heq⟩
  | blockEvents result block rest alerter hphase hstep =>
      refine Or.inr ⟨_, Alerter.step_eventsStep hstep, fun answer block' rest' heq hphase' => ?_⟩
      rw [hphase] at hphase'
      cases heq
      cases hphase'
      cases result with
      | ok _ => exact Or.inl rfl
      | error err => exact Or.inr ⟨err, rfl⟩
  | alerter event alerter hanswer hstep =>
      refine Or.inr ⟨_, Alerter.step_eventsStep hstep, fun answer block rest heq _ => ?_⟩
      rw [heq] at hanswer
      cases hanswer

/-- A step of the deployment extends the trace of the event monitor by what the monitor
sees of it: nothing, the next message of the channel, or the answer of the node for the
block that it asks for. -/
theorem AsksNode.step {event : DeploymentEvent T} {trace : List EventsReply}
    (h : AsksNode setup eventsAt d trace) (hstep : d.step setup eventsAt event = some d') :
    ∃ trace', AsksNode setup eventsAt d' trace' := by
  rcases step_eventsStep hstep with ⟨hwatcher, htaken⟩ | ⟨event', hevents, hhonest⟩
  · exact ⟨trace, by rw [hwatcher]; exact h.watched, by rw [htaken]; exact h.taken, h.answered⟩
  · cases hevents with
    | same _ hwatcher htaken =>
        exact ⟨trace, by rw [hwatcher]; exact h.watched, by rw [htaken]; exact h.taken, h.answered⟩
    | recv received hwatcher htaken =>
        refine ⟨trace ++ [.recv (recvResult received)], h.watched.step hwatcher, ?_, ?_⟩
        · rw [List.filterMap_append, h.taken, htaken]
          cases received <;> rfl
        · -- A message is no answer.
          exact h.watched.answered_step h.answered hwatcher fun _ _ _ _ heq => by cases heq
    | answer answer hwatcher htaken =>
        refine ⟨trace ++ [.events answer], h.watched.step hwatcher, ?_, ?_⟩
        · rw [List.filterMap_append, h.taken, htaken]
          exact List.append_nil _
        · refine h.watched.answered_step h.answered hwatcher fun block rest _ hphase heq => ?_
          cases heq
          exact hhonest answer block rest rfl hphase

/-- A panicked monitor sends nothing. -/
theorem step_panicked {event : DeploymentEvent T} (hstep : d.step setup eventsAt event = some d')
    (h : d.alerter.process.eventWatcher.phase = .panicked) :
    d'.alerter.process.eventWatcher = d.alerter.process.eventWatcher := by
  rcases step_eventsStep hstep with ⟨hwatcher, -⟩ | ⟨event', hevents, -⟩
  · exact hwatcher
  · cases hevents with
    | same _ hwatcher htaken => exact hwatcher
    | recv received hwatcher htaken => simp [EventWatcher.step, h] at hwatcher
    | answer answer hwatcher htaken => simp [EventWatcher.step, h] at hwatcher

/-- The monitor has asked the node, or it has panicked at an address and sent nothing.
The panic can only be at the start, where the map of the accounts is built. -/
theorem run_asksNode {node : Node T} {events : List (DeploymentEvent T)}
    (hrun : run (step setup eventsAt) (init setup node) events = some d) :
    (∃ trace, AsksNode setup eventsAt d trace) ∨
      d.alerter.process.eventWatcher.phase = .panicked ∧
        d.alerter.process.eventWatcher.alerts = [] := by
  refine run_invariant (P := fun d : Deployment T capacity =>
    (∃ trace, AsksNode setup eventsAt d trace) ∨
      d.alerter.process.eventWatcher.phase = .panicked ∧ d.alerter.process.eventWatcher.alerts = [])
    (fun d event d' h hstep => ?_) events _ d ?_ hrun
  · rcases h with ⟨trace, htrace⟩ | ⟨hpanicked, halerts⟩
    · exact Or.inl (htrace.step hstep)
    · rw [step_panicked hstep hpanicked]
      exact Or.inr ⟨hpanicked, halerts⟩
  · show (∃ trace, AsksNode setup eventsAt (init setup node) trace) ∨
      (EventWatcher.init setup.eventEnv setup.accounts).phase = .panicked ∧
        (EventWatcher.init setup.eventEnv setup.accounts).alerts = []
    cases hmap : accountMappedName setup.eventEnv setup.accounts with
    | none =>
        rw [EventWatcher.init, hmap]
        exact Or.inr ⟨rfl, rfl⟩
    | some map =>
        exact Or.inl ⟨[], EventWatcher.watched_init (valid_of_accountMappedName hmap), rfl,
          fun f hf => by cases hf⟩

/-- The alerts of the monitor are the first ones of the blocks that were sent. A monitor
that has received all messages and waits for the next one has sent all of them. -/
theorem eventWatcher_alerts {node : Node T} {events : List (DeploymentEvent T)}
    (hrun : run (step setup eventsAt) (init setup node) events = some d) :
    d.alerter.process.eventWatcher.alerts <+:
        chainAlerts setup eventsAt (d.alerter.process.listener.sent.flatMap BlocksExt.blocks) ∧
      (d.alerter.process.eventsTaken = d.alerter.process.listener.sent →
        d.alerter.process.eventWatcher.phase = .waiting →
        d.alerter.process.eventWatcher.alerts =
          chainAlerts setup eventsAt
            (d.alerter.process.listener.sent.flatMap BlocksExt.blocks)) := by
  obtain ⟨events', halerter⟩ := run_alerter hrun
  obtain ⟨events'', hprocess⟩ := Alerter.run_process halerter
  have htaken := (Process.run_feed_sound hprocess .events).taken_initial
  rw [Process.taken_feed, Process.sent_feed] at htaken
  have htaken : d.alerter.process.eventsTaken <+: d.alerter.process.listener.sent := htaken
  rcases run_asksNode hrun with ⟨trace, h⟩ | ⟨hpanicked, halerts⟩
  · refine ⟨?_, fun hcaught hwaiting => ?_⟩
    · have hfetched := fetchedBlocks_initial trace
      rw [receivedBlocks_eq, h.taken] at hfetched
      rw [h.watched.alerts_fetched]
      refine (readable_alerts_initial h.answered).trans (List.IsPrefix.flatMap ?_ _)
      exact hfetched.trans (htaken.flatMap _)
    · -- Every block that was received has an answer, and all answers are readable.
      have hfetched := h.watched.fetched_of_waiting hwaiting
      rw [receivedBlocks_eq, h.taken, hcaught] at hfetched
      have hread := h.watched.phase
      rw [hwaiting] at hread
      rw [h.watched.alerts_fetched, ← hfetched]
      exact readable_alerts_eq h.answered fun f hf => hread.2.1 f.2 (List.of_mem_zip hf).2
  · refine ⟨?_, fun _ hwaiting => ?_⟩
    · rw [halerts]
      exact List.nil_prefix
    · rw [hpanicked] at hwaiting
      cases hwaiting

/-- Each block that was sent was on the node's chain, at the moment of the canonical
check that adopted it or a block above it. -/
theorem sent_on_chain (hlaw : setup.env.Lawful T) {node : Node T}
    {events : List (DeploymentEvent T)}
    (hrun : run (step setup eventsAt) (init setup node) events = some d) :
    ∀ block ∈ d.alerter.process.listener.sent.flatMap BlocksExt.blocks,
      ∃ (y : T.Block) (now : List (DeploymentEvent T)) (d' : Deployment T capacity),
        block = y.blockExt ∧ now <+: events ∧
        run (step setup eventsAt) (init setup node) now = some d' ∧
        T.tree.IsAncestor y d'.node.best := by
  intro block hblock
  obtain ⟨message, hmessage, hblock⟩ := List.mem_flatMap.mp hblock
  obtain ⟨old, new, a, b, hmoments, rfl, -, -, hbnew⟩ := run_genuine hlaw hrun message hmessage
  obtain ⟨before, now, -, hnow, -, ⟨d', hd', rfl⟩⟩ := hmoments
  obtain ⟨y, hy, rfl⟩ := List.mem_map.mp hblock
  exact ⟨y, now, d', rfl, hnow, hd', (ParentTree.mem_branch.mp hy).1.trans hbnew⟩

end Deployment

/-- The events that Slack shows are those of the node's chain. The node may change its
best block at any time, connections may be lost, requests may fail, and the tasks run in
any order. The event alerts that were posted are the first ones of those of the blocks
that the listener has sent, block by block in this order, where a block has the alerts
of its events on the chain. Once the event monitor and the Slack task have handled all,
they are all of them. Each of these blocks is one that was on the node's chain at a
moment of the run. -/
theorem posted_events_exact (capacity : Nat) (setup : Setup) (T : BlockTree setup.env)
    (hlaw : setup.env.Lawful T) (eventsAt : BlockHash → List EventDetails) (node : Node T)
    (events : List (DeploymentEvent T)) (d : Deployment T capacity)
    (hrun : run (Deployment.step setup eventsAt) (Deployment.init setup node) events = some d) :
    (∃ posted, d.alerter.Posted setup posted ∧
      posted.filter (fun alert => alert.source = .events) <+:
        chainAlerts setup eventsAt (d.alerter.process.listener.sent.flatMap BlocksExt.blocks) ∧
      (d.alerter.process.taken .events = d.alerter.process.listener.sent →
        d.alerter.process.eventWatcher.phase = .waiting → d.alerter.slack.phase.isEnd = false →
        d.alerter.alerts.queue = [] →
        posted.filter (fun alert => alert.source = .events) =
          chainAlerts setup eventsAt (d.alerter.process.listener.sent.flatMap BlocksExt.blocks))) ∧
    ∀ block ∈ d.alerter.process.listener.sent.flatMap BlocksExt.blocks,
      ∃ (y : T.Block) (now : List (DeploymentEvent T)) (d' : Deployment T capacity),
        block = y.blockExt ∧ now <+: events ∧
        run (Deployment.step setup eventsAt) (Deployment.init setup node) now = some d' ∧
        T.tree.IsAncestor y d'.node.best := by
  obtain ⟨events', halerter⟩ := Deployment.run_alerter hrun
  obtain ⟨halerts, hall⟩ := Deployment.eventWatcher_alerts hrun
  obtain ⟨posted, hposted, hinitial, hrest⟩ := Alerter.exists_posted halerter
  refine ⟨⟨posted, hposted, (hinitial .events).trans halerts, ?_⟩,
    Deployment.sent_on_chain hlaw hrun⟩
  intro hcaught hwaiting hend hqueue
  have hfilter := hrest hend .events
  rw [hqueue, List.append_nil] at hfilter
  exact hfilter.trans (hall hcaught hwaiting)

/-- A transfer in block `3`, and no other events. -/
def forkEventsAt (hash : BlockHash) : List EventDetails :=
  if hash = 3 then [⟨"Balances", "Transfer", [9]⟩] else []

/-- The chain grows by block `3`, whose events are fetched, and the alert is posted. -/
def growthDeploymentEvents : List (DeploymentEvent forkTree) :=
  (forkStart ++ [WorldEvent.importBlock (forkBlock 3) true, .deliver (forkBlock 3), .answer]).map
      .world ++
    [.alerter (.process (.recv .events)), .blockEvents (.ok ()), .alerter (.session (.ok ())),
     .alerter .recvAlert]

/-- The transfer is posted, and nothing else. -/
theorem posted_events_exact_growth :
    ∃ (d : Deployment forkTree 4) (posted : List Alert),
      run (Deployment.step sampleSetup forkEventsAt) (Deployment.init sampleSetup forkNode)
        growthDeploymentEvents = some d ∧
      d.alerter.slack.requests.length = 1 ∧ d.alerter.Posted sampleSetup posted ∧
      posted.filter (fun alert => alert.source = .events) =
        [.event (.transfer ⟨.sender, .transfer, "third", "alice", 9⟩)] := by
  have heval : ((run (Deployment.step sampleSetup forkEventsAt)
      (Deployment.init sampleSetup forkNode : Deployment forkTree 4) growthDeploymentEvents).map
        fun d => (d.alerter.slack.requests.length, d.alerter.slack.phase, d.alerter.alerts.queue,
          decide (d.alerter.process.eventsTaken = d.alerter.process.listener.sent) &&
            (match d.alerter.process.eventWatcher.phase with
            | .waiting => true
            | _ => false),
          chainAlerts sampleSetup forkEventsAt
            (d.alerter.process.listener.sent.flatMap BlocksExt.blocks))) =
      some (1, .posting, [], true,
        [.event (.transfer ⟨.sender, .transfer, "third", "alice", 9⟩)]) := by
    decide +kernel
  simp only [Option.map_eq_some_iff, Prod.mk.injEq, Bool.and_eq_true, decide_eq_true_eq] at heval
  obtain ⟨d, hrun, hlength, hphase, hqueue, ⟨hcaught, hwaiting⟩, hchain⟩ := heval
  have hwaiting : d.alerter.process.eventWatcher.phase = .waiting := by
    cases hwatcher : d.alerter.process.eventWatcher.phase with
    | waiting => rfl
    | _ => rw [hwatcher] at hwaiting; cases hwaiting
  obtain ⟨⟨posted, hposted, -, hall⟩, -⟩ :=
    posted_events_exact 4 sampleSetup forkTree forkTree_lawful forkEventsAt forkNode
      growthDeploymentEvents d hrun
  exact ⟨d, posted, hrun, hlength, hposted,
    (hall hcaught hwaiting (by rw [hphase]; rfl) hqueue).trans hchain⟩

end ChainAlerter
