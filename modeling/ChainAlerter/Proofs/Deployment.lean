import ChainAlerter.Model.Deployment
import ChainAlerter.Proofs.AlerterSteps
import ChainAlerter.Proofs.ReorgAlerts
import ChainAlerter.Proofs.Truthful

/-!
# `ChainAlerter.Proofs.Deployment`: the node's chain and the messages

A deployment shows as a world and as an alerter, so the results about the listener and
about the tasks hold in it. Each message of the listener is `Genuine`: there are two
moments of the run such that the retracted blocks are on the node's chain at the first
one, and the blocks of the message at the second one.
-/

set_option autoImplicit false

namespace ChainAlerter

open ChainAlerter.Library
open ChainAlerter.Abstract

/-- A reply is what takes the world to its next state. The listener of the alerter gets
the same reply in this step, so the two stay the same. -/
theorem World.step_of_reply? {env : Externals} {T : BlockTree env} {w : World T} {e : WorldEvent T}
    {reply : Reply} (h : w.reply? e = some reply) : w.step e = w.hear reply := by
  cases e with
  | importBlock b newBest => cases h
  | setBest b => cases h
  | deliver b =>
      simp only [World.reply?] at h
      split at h
      · rename_i hb
        cases h
        simp only [World.step, if_pos hb]
      · cases h
  | answer =>
      show (w.node.reply w.listener.phase).bind w.hear = _
      rw [show w.node.reply w.listener.phase = some reply from h]
      rfl
  | answerSlot slot =>
      simp only [World.reply?] at h
      split at h
      · rename_i latest slots hphase
        simp only [World.step, hphase, h]
        rfl
      · cases h
  | lose lost =>
      simp only [World.reply?] at h
      split at h
      · rename_i hlost
        cases h
        simp only [World.step, if_pos hlost]
      · cases h

namespace Deployment

variable {capacity : Nat} {setup : Setup} {T : BlockTree setup.env}
  {eventsAt : BlockHash → List EventDetails} {d d' : Deployment T capacity}

/-- Everything that a step can do. -/
inductive Moves (setup : Setup) {T : BlockTree setup.env} (eventsAt : BlockHash → List EventDetails)
    (d : Deployment T capacity) : DeploymentEvent T → Deployment T capacity → Prop where
  | node (event : WorldEvent T) (node : Node T)
      (hstep : d.world.step event = some { d.world with node := node }) :
      Moves setup eventsAt d (.world event) { d with node := node }
  | listen (event : WorldEvent T) (reply : Reply) (alerter : Alerter capacity)
      (hreply : d.world.reply? event = some reply)
      (hstep : d.alerter.step setup (.process (.listen reply)) = some alerter) :
      Moves setup eventsAt d (.world event) { d with alerter := alerter }
  | blockEvents (result : Except SubxtError Unit) (block : BlockExt) (rest : List BlockExt)
      (alerter : Alerter capacity)
      (hphase : d.alerter.process.eventWatcher.phase = .fetching block rest)
      (hstep : d.alerter.step setup
        (.process (.blockEvents (result.map fun _ => eventsAt block.hash))) = some alerter) :
      Moves setup eventsAt d (.blockEvents result) { d with alerter := alerter }
  | alerter (event : AlerterEvent) (alerter : Alerter capacity) (hanswer : event.isAnswer = false)
      (hstep : d.alerter.step setup event = some alerter) :
      Moves setup eventsAt d (.alerter event) { d with alerter := alerter }

/-- An answer to the listener is a move of the deployment. -/
theorem listen_moves {event : WorldEvent T} (h : (d.world.reply? event).bind
    (fun reply => d.alert setup (.process (.listen reply))) = some d') :
    Moves setup eventsAt d (.world event) d' := by
  obtain ⟨reply, hreply, halert⟩ := Option.bind_eq_some_iff.mp h
  obtain ⟨alerter, hstep, rfl⟩ := Option.map_eq_some_iff.mp halert
  exact .listen event reply alerter hreply hstep

/-- Everything a step of the deployment can do: the node moves, the listener or the
event monitor gets an answer of the node, or the alerter makes a step that needs no
answer. The results on the deployment split into these four cases. -/
theorem step_moves {event : DeploymentEvent T} (h : d.step setup eventsAt event = some d') :
    Moves setup eventsAt d event d' := by
  cases event with
  | world event =>
      cases event with
      | importBlock b newBest =>
          obtain ⟨node, hnode, rfl⟩ := Option.map_eq_some_iff.mp h
          exact .node _ node (Option.map_eq_some_iff.mpr ⟨node, hnode, rfl⟩)
      | setBest b =>
          obtain ⟨node, hnode, rfl⟩ := Option.map_eq_some_iff.mp h
          exact .node _ node (Option.map_eq_some_iff.mpr ⟨node, hnode, rfl⟩)
      | deliver b => exact listen_moves h
      | answer => exact listen_moves h
      | answerSlot slot => exact listen_moves h
      | lose reply => exact listen_moves h
  | blockEvents result =>
      simp only [step] at h
      split at h
      · rename_i block rest hphase
        obtain ⟨alerter, hstep, rfl⟩ := Option.map_eq_some_iff.mp h
        exact .blockEvents result block rest alerter hphase hstep
      · cases h
  | alerter event =>
      simp only [step] at h
      split at h
      · cases h
      · rename_i hanswer
        obtain ⟨alerter, hstep, rfl⟩ := Option.map_eq_some_iff.mp h
        exact .alerter event alerter (by simpa using hanswer) hstep

/-! ### The alerter and the world in it -/

/-- A step of the deployment is a run of the alerter, of one event or of none. So every
invariant of the alerter is one of the deployment. -/
theorem step_alerter {event : DeploymentEvent T} (h : d.step setup eventsAt event = some d') :
    ∃ events, run (Alerter.step setup) d.alerter events = some d'.alerter := by
  cases step_moves h with
  | node event node hstep => exact ⟨[], rfl⟩
  | listen event reply alerter hreply hstep => exact ⟨[_], by rw [run_singleton]; exact hstep⟩
  | blockEvents result block rest alerter hphase hstep =>
      exact ⟨[_], by rw [run_singleton]; exact hstep⟩
  | alerter event alerter hanswer hstep => exact ⟨[_], by rw [run_singleton]; exact hstep⟩

/-- Every run of a deployment is one of the alerter. -/
theorem run_alerter {node : Node T} {events : List (DeploymentEvent T)}
    (hrun : run (step setup eventsAt) (init setup node) events = some d) :
    ∃ events', run (Alerter.step setup) (Alerter.init setup) events' = some d.alerter :=
  exists_run_view (fun b : Deployment T capacity => b.alerter) (fun _ _ _ h => step_alerter h)
    events _ d hrun

/-- The steps of the world. -/
def worldEvent? : DeploymentEvent T → Option (WorldEvent T)
  | .world event => some event
  | _ => none

/-- A step of the alerter that is no reply leaves the listener as it is. -/
theorem listener_of_reply? {a a' : Alerter capacity} {event : AlerterEvent}
    (h : a.step setup event = some a') (hreply : Alerter.reply? event = none) :
    a'.process.listener = a.process.listener := by
  have hview := Alerter.shows_listener a event a' h
  rw [hreply] at hview
  exact hview

/-- Seen through node and listener, a run of the deployment is a run of the world. The
other tasks have no part in it. -/
theorem shows_world : Shows (step setup eventsAt : Deployment T capacity → _ → _) World.step world
    worldEvent? := by
  intro d event d' h
  cases step_moves h with
  | node event node hstep => exact hstep
  | listen event reply alerter hreply hstep =>
      show d.world.step event = some _
      have hview : d.alerter.process.listener.step setup.env reply =
          some alerter.process.listener :=
        Alerter.shows_listener d.alerter (.process (.listen reply)) alerter hstep
      rw [World.step_of_reply? hreply, World.hear]
      exact Option.map_eq_some_iff.mpr ⟨_, hview, rfl⟩
  | blockEvents result block rest alerter hphase hstep =>
      have hlistener := listener_of_reply? hstep rfl
      show World.mk d.node alerter.process.listener = World.mk d.node d.alerter.process.listener
      rw [hlistener]
  | alerter event alerter hanswer hstep =>
      have hlistener : alerter.process.listener = d.alerter.process.listener := by
        refine listener_of_reply? hstep ?_
        cases event with
        | process event => cases event <;> first | rfl | cases hanswer
        | _ => rfl
      show World.mk d.node alerter.process.listener = World.mk d.node d.alerter.process.listener
      rw [hlistener]

/-! ### Moments of a run -/

section
variable (capacity setup eventsAt) (node : Node T)

/-- The node's best block after the events `moment`. -/
def BestAt (moment : List (DeploymentEvent T)) (best : T.Block) : Prop :=
  ∃ d : Deployment T capacity, run (step setup eventsAt) (init setup node) moment = some d ∧
    d.node.best = best

/-- Two moments of a run, and the node's best blocks then. -/
def Moments (events : List (DeploymentEvent T)) (old new : T.Block) : Prop :=
  ∃ before now, before <+: now ∧ now <+: events ∧ BestAt capacity setup eventsAt node before old ∧
    BestAt capacity setup eventsAt node now new

/-- The message is that of a move from a block of the node's chain at one moment to a
block of its chain at a later one. -/
def Genuine (events : List (DeploymentEvent T)) (message : BlocksExt) : Prop :=
  ∃ old new a b : T.Block, Moments capacity setup eventsAt node events old new ∧
    message = T.broadcast a b ∧ ¬ T.tree.IsAncestor b a ∧ T.tree.IsAncestor a old ∧
    T.tree.IsAncestor b new

/-- Both checks were made at moments of the run, in this order. -/
structure Recorded (events : List (DeploymentEvent T)) (adoptedAt checkedAt : Option (Check T)) :
    Prop where
  adopted : ∀ check, adoptedAt = some check →
    Moments capacity setup eventsAt node events check.best check.best
  checked : ∀ check, checkedAt = some check →
    Moments capacity setup eventsAt node events check.best check.best
  ordered : ∀ first second, adoptedAt = some first → checkedAt = some second →
    Moments capacity setup eventsAt node events first.best second.best

end

variable {node : Node T} {events : List (DeploymentEvent T)} {old new best : T.Block}
  {adoptedAt checkedAt next : Option (Check T)}

/-- Two moments of a run are moments of the run with one event more. -/
theorem Moments.mono (h : Moments capacity setup eventsAt node events old new)
    (event : DeploymentEvent T) :
    Moments capacity setup eventsAt node (events ++ [event]) old new := by
  obtain ⟨before, now, hbefore, hnow, hold, hnew⟩ := h
  exact ⟨before, now, hbefore, hnow.trans (List.prefix_append _ _), hold, hnew⟩

/-- The second moment is the present one. -/
theorem Moments.present (h : Moments capacity setup eventsAt node events old new)
    (hbest : BestAt capacity setup eventsAt node events best) :
    Moments capacity setup eventsAt node events old best := by
  obtain ⟨before, now, hbefore, hnow, hold, -⟩ := h
  exact ⟨before, events, hbefore.trans hnow, List.prefix_rfl, hold, hbest⟩

/-- A message that was genuine stays so, since its two moments stay where they are. -/
theorem Genuine.mono {message : BlocksExt}
    (h : Genuine capacity setup eventsAt node events message) (event : DeploymentEvent T) :
    Genuine capacity setup eventsAt node (events ++ [event]) message := by
  obtain ⟨old, new, a, b, hmoments, hmessage⟩ := h
  exact ⟨old, new, a, b, hmoments.mono event, hmessage⟩

/-- Before the first check there is nothing to record. -/
theorem recorded_none : Recorded capacity setup eventsAt node events none none where
  adopted check hcheck := by cases hcheck
  checked check hcheck := by cases hcheck
  ordered first second hfirst hsecond := by cases hfirst

/-- Checks that were recorded stay so. -/
theorem Recorded.mono (h : Recorded capacity setup eventsAt node events adoptedAt checkedAt)
    (event : DeploymentEvent T) :
    Recorded capacity setup eventsAt node (events ++ [event]) adoptedAt checkedAt :=
  ⟨fun check hcheck => (h.adopted check hcheck).mono event,
    fun check hcheck => (h.checked check hcheck).mono event,
    fun first second hfirst hsecond => (h.ordered first second hfirst hsecond).mono event⟩

/-- A check is made at the present moment. The chain that it is about is the one that
the node has now. -/
theorem Recorded.check (h : Recorded capacity setup eventsAt node events adoptedAt checkedAt)
    (hbest : BestAt capacity setup eventsAt node events best)
    (hnext : next = checkedAt ∨ ∃ block, next = some ⟨block, best⟩) :
    Recorded capacity setup eventsAt node events adoptedAt next := by
  rcases hnext with rfl | ⟨block, rfl⟩
  · exact h
  · refine ⟨h.adopted, fun check hcheck => ?_, fun first second hfirst hsecond => ?_⟩
    · cases hcheck
      exact ⟨events, events, List.prefix_rfl, List.prefix_rfl, hbest, hbest⟩
    · cases hsecond
      exact (h.adopted first hfirst).present hbest

/-- The block of the latest check is adopted. -/
theorem Recorded.adopt (h : Recorded capacity setup eventsAt node events adoptedAt checkedAt) :
    Recorded capacity setup eventsAt node events checkedAt checkedAt := by
  refine ⟨h.checked, h.checked, fun first second hfirst hsecond => ?_⟩
  rw [hfirst] at hsecond
  cases hsecond
  exact h.checked first hfirst

/-! ### The messages are genuine -/

/-- An event leaves the latest check as it is, or makes one of the node's present chain. -/
theorem nextCheckedAt_cases (w : Witnessed T) (event : WorldEvent T) :
    w.nextCheckedAt event = w.checkedAt ∨
      ∃ block, w.nextCheckedAt event = some ⟨block, w.world.node.best⟩ := by
  unfold Witnessed.nextCheckedAt
  split
  · split
    · exact Or.inr ⟨_, rfl⟩
    · exact Or.inl rfl
  · exact Or.inl rfl

/-- The world of the deployment with its two checks, which were made in this run, and
the messages so far. -/
structure Backed (eventsAt : BlockHash → List EventDetails) (node : Node T)
    (events : List (DeploymentEvent T)) (d : Deployment T capacity) (w : Witnessed T) : Prop where
  world : w.world = d.world
  sound : w.Sound
  recorded : Recorded capacity setup eventsAt node events w.adoptedAt w.checkedAt
  genuine : ∀ message ∈ d.alerter.process.listener.sent,
    Genuine capacity setup eventsAt node events message

/-- A step of the world, with its two checks: the moment at which the best block was
adopted, and the latest canonical check. Both are moments of the run so far. -/
theorem Backed.world_step (hlaw : setup.env.Lawful T) {w : Witnessed T}
    (h : Backed eventsAt node events d w)
    (hrun : run (step setup eventsAt) (init setup node) events = some d) {event : WorldEvent T}
    (hstep : d.world.step event = some d'.world) :
    ∃ w', Backed eventsAt node (events ++ [.world event]) d' w' := by
  have hwitnessed : w.step event = some
      { world := d'.world
        checkedAt := w.nextCheckedAt event
        adoptedAt :=
          if d'.world.listener.currentBestBlock = w.world.listener.currentBestBlock then w.adoptedAt
          else w.nextCheckedAt event } := by
    rw [Witnessed.step, h.world, hstep]
    rfl
  obtain ⟨hsound, hsent⟩ := Witnessed.step_sound hlaw h.sound hwitnessed
  have hbest : BestAt capacity setup eventsAt node events w.world.node.best :=
    ⟨d, hrun, by rw [h.world]; rfl⟩
  have hchecked := h.recorded.check hbest (nextCheckedAt_cases w event)
  refine ⟨_, rfl, hsound, ?_, ?_⟩
  · split
    · exact hchecked.mono _
    · exact hchecked.adopt.mono _
  · have hlistener : w.world.listener.sent = d.alerter.process.listener.sent := by
      rw [h.world]
      rfl
    intro message hmessage
    rcases hsent with hquiet | ⟨a, b, hmove, -, -, hba, ⟨old, hold, haold⟩, ⟨new, hnew, hbnew⟩⟩
    · have hmem : message ∈ w.world.listener.sent := by
        rw [← hquiet]
        exact hmessage
      rw [hlistener] at hmem
      exact (h.genuine message hmem).mono _
    · have hmem : message ∈ w.world.listener.sent ++ [T.broadcast a b] := by
        rw [← hmove]
        exact hmessage
      rcases List.mem_append.mp hmem with hmem | hmem
      · rw [hlistener] at hmem
        exact (h.genuine message hmem).mono _
      · rw [List.mem_singleton.mp hmem]
        exact ⟨old, new, a, b, (hchecked.ordered _ _ hold hnew).mono _, rfl, hba, haold, hbnew⟩

/-- Every run of the deployment has a world with its two checks beside it, and the
messages so far are genuine. An event of another task adds no check and no message. -/
theorem run_backed (hlaw : setup.env.Lawful T)
    (hrun : run (step setup eventsAt) (init setup node) events = some d) :
    ∃ w, Backed eventsAt node events d w := by
  refine run_history (P := fun events d => ∃ w, Backed eventsAt node events d w) ?_ ?_ events d hrun
  · refine ⟨Witnessed.init node, rfl, ⟨.detached, tracks_init, trivial⟩, recorded_none, ?_⟩
    intro message hmessage
    cases hmessage
  · intro events d event d' hrun hbacked hstep
    obtain ⟨w, h⟩ := hbacked
    have hview := shows_world d event d' hstep
    cases event with
    | world event => exact h.world_step hlaw hrun hview
    | _ =>
        -- The world is as before, and so are its messages.
        have hsent : d'.alerter.process.listener.sent = d.alerter.process.listener.sent :=
          congrArg (fun w : World T => w.listener.sent) hview
        refine ⟨w, h.world.trans hview.symm, h.sound, h.recorded.mono _, ?_⟩
        intro message hmessage
        rw [hsent] at hmessage
        exact (h.genuine message hmessage).mono _

/-- Every message of the listener is genuine. -/
theorem run_genuine (hlaw : setup.env.Lawful T)
    (hrun : run (step setup eventsAt) (init setup node) events = some d) :
    ∀ message ∈ d.alerter.process.listener.sent,
      Genuine capacity setup eventsAt node events message := by
  obtain ⟨w, h⟩ := run_backed hlaw hrun
  exact h.genuine

end Deployment

end ChainAlerter
