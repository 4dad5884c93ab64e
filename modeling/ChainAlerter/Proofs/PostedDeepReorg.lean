import ChainAlerter.Proofs.DeepReorg
import ChainAlerter.Proofs.PostedReorgs
import ChainAlerter.Proofs.Survival

/-!
# `ChainAlerter.Proofs.PostedDeepReorg`: from a deep reorg of the node to the post

`Proofs.DeepReorg` follows one subscription: a listener that keeps up with the node reports
a deep reorg. Here the listener is one task among all, beside a node that may also change
its best block without an import. `deep_reorg_posted` goes on to the post: once the monitor
has received and the Slack task has posted everything, Slack has been sent a reorg alert
that retracts the whole branch.

A step of a connected world is a step of a subscription, up to the queue, or the node sets
its best block and the listener stands still. So the two step lemmas of `Proofs.DeepReorg`
carry over to the world, and from there to the runs of a deployment.
-/

set_option autoImplicit false

namespace ChainAlerter

open ChainAlerter.Library
open ChainAlerter.Abstract

section
variable {env : Externals} {T : BlockTree env} {a b : T.Block} {w w' : World T} {e : WorldEvent T}

/-- A step of a connected world, up to the notifications that wait. The world has no
queue of them, so a delivered or imported block is put into one for this step. -/
theorem World.subscribed_step (hconnected : e.isLoss = false) (hstep : w.step e = some w') :
    (∃ best, e = .setBest best) ∨ ∃ (queue queue' : List T.Block) (event : SubscribedEvent T),
      Subscribed.step ⟨w, queue⟩ event = some ⟨w', queue'⟩ ∧ (event = .answer → e = .answer) := by
  cases e with
  | setBest best => exact Or.inl ⟨best, rfl⟩
  | importBlock block newBest =>
      refine Or.inr ⟨[], [block], .importBlock block newBest, ?_, by simp⟩
      simp [Subscribed.step, hstep]
  | deliver block =>
      refine Or.inr ⟨[block], [], .next, ?_, by simp⟩
      simp [Subscribed.step, hstep]
  | answer =>
      refine Or.inr ⟨[], [], .answer, ?_, by simp⟩
      simp [Subscribed.step, hstep]
  | answerSlot slot =>
      refine Or.inr ⟨[], [], .answerSlot slot, ?_, by simp⟩
      simp [Subscribed.step, hstep]
  | lose reply => cases hconnected

/-- A new best block of the node is no step of the listener, so what holds of the
listener and its messages stays. -/
theorem World.setBest_branch (hlaw : env.Lawful T) {best : T.Block} {P : Tracker T.Block → Prop}
    (h : ∃ s, w.Tracks s ∧ (Reported a b w.listener.sent ∨ P s))
    (hstep : w.step (.setBest best) = some w') :
    ∃ s, w'.Tracks s ∧ (Reported a b w'.listener.sent ∨ P s) := by
  obtain ⟨s, htracks, hbranch⟩ := h
  cases World.step_moves hlaw htracks hstep with
  | ofNode hlistener htracks' hnode =>
      rw [← hlistener] at hbranch
      exact ⟨s, htracks', hbranch⟩
  | ofListener hnode act move s' hact => cases hact

/-- The connection holds, and a canonical check is made as `checksOn` says. -/
def World.keepsUp (a b : T.Block) (w : World T) : WorldEvent T → Bool
  | .answer => checksOn a b ⟨w, []⟩ .answer
  | e => !e.isLoss

/-- A step that keeps up does not lose the connection. This is the part of `keepsUp`
that the steps without a canonical check need. -/
theorem World.isLoss_of_keepsUp (h : w.keepsUp a b e = true) : e.isLoss = false := by
  cases e with
  | lose reply => cases h
  | _ => rfl

/-- A step that keeps up keeps the listener on the branch of `a`, or reports the reorg
to `b`. It is the step lemma of a subscribed world, as all steps but a new best block of
the node are steps of one. -/
theorem World.step_onBranch (hlaw : env.Lawful T) (hab : ¬ T.tree.IsAncestor a b)
    (h : OnBranch a b ⟨w, []⟩) (hkeeps : w.keepsUp a b e = true) (hstep : w.step e = some w') :
    OnBranch a b ⟨w', []⟩ := by
  rcases World.subscribed_step (isLoss_of_keepsUp hkeeps) hstep with
    ⟨best, rfl⟩ | ⟨queue, queue', event, hsubscribed, hevent⟩
  · exact World.setBest_branch hlaw h hstep
  · have hchecks : checksOn a b ⟨w, queue⟩ event = true := by
      cases event with
      | answer =>
          cases hevent rfl
          exact hkeeps
      | _ => rfl
    have hnext : OnBranch a b ⟨w', queue'⟩ :=
      ChainAlerter.step_onBranch (w := ⟨w, queue⟩) hlaw hab h hchecks hsubscribed
    exact hnext

/-- Once the listener leaves the branch of `a`, every step over a connection that
holds keeps it on its way to `b`, or reports the reorg. Here the canonical checks may
give any answer. -/
theorem World.step_leavesBranch (hlaw : env.Lawful T) (hab : ¬ T.tree.IsAncestor a b)
    (h : LeavesBranch a b ⟨w, []⟩) (hconnected : e.isLoss = false) (hstep : w.step e = some w') :
    LeavesBranch a b ⟨w', []⟩ := by
  rcases World.subscribed_step hconnected hstep with
    ⟨best, rfl⟩ | ⟨queue, queue', event, hsubscribed, -⟩
  · exact World.setBest_branch hlaw h hstep
  · have hnext : LeavesBranch a b ⟨w', queue'⟩ :=
      ChainAlerter.step_leavesBranch (w := ⟨w, queue⟩) hlaw hab h hsubscribed
    exact hnext

/-- In every state of a run the listener tracks the tree, whatever connections
it has lost. The invariant is that of the tracker, which starts detached and
follows each step. -/
theorem World.run_tracks (hlaw : env.Lawful T) {node : Node T} {events : List (WorldEvent T)}
    (hrun : run World.step (World.init node) events = some w) : ∃ s, w.Tracks s := by
  refine run_invariant (P := fun w : World T => ∃ s, w.Tracks s) ?_ events (World.init node) w
    ⟨.detached, tracks_init⟩ hrun
  rintro w event w' ⟨s, htracks⟩ hstep
  cases World.step_moves hlaw htracks hstep with
  | ofNode _ htracks' => exact ⟨s, htracks'⟩
  | ofListener _ _ _ s' _ _ htracks' => exact ⟨s', htracks'⟩

/-- A listener at `c`, at or above `a`, is on the branch. It may be checking a
received block, but it is not on a route yet, which could lead off the branch without
retracting it. -/
theorem World.onBranch_of_best {c : T.Block} {s : Tracker T.Block} (htracks : w.Tracks s)
    (hbest : w.listener.currentBestBlock = some c.hashAndNumber)
    (hroute : ∀ best block missing, w.listener.phase ≠ .listenRoute best block missing)
    (hac : T.tree.IsAncestor a c) : OnBranch a b ⟨w, []⟩ := by
  refine ⟨s, htracks, Or.inr ?_⟩
  rw [htracks.currentBestBlock] at hbest
  have hshows := htracks.phase
  cases s with
  | following d =>
      cases BlockTree.Block.hashAndNumber_injective (Option.some.inj hbest)
      exact hac
  | verifying d d' =>
      cases BlockTree.Block.hashAndNumber_injective (Option.some.inj hbest)
      exact hac
  | routing d d' =>
      generalize hphase : w.listener.phase = phase at hshows
      cases hshows
      exact absurd hphase (hroute _ _ _)
  | _ => cases hbest

/-- An idle listener that has left the branch has reported it. -/
theorem World.reported_of_idle {best : HashAndNumber} (h : LeavesBranch a b ⟨w, []⟩)
    (hidle : w.listener.phase = .listenNext best) : Reported a b w.listener.sent := by
  obtain ⟨s, htracks, hreported | hleaves⟩ := h
  · exact hreported
  · have htracks : w.Tracks s := htracks
    have hshows := htracks.phase
    rw [hidle] at hshows
    cases hshows
    exact hleaves.elim

end

namespace Deployment

variable {capacity : Nat} {setup : Setup} {T : BlockTree setup.env}
  {eventsAt : BlockHash → List EventDetails} {d d' : Deployment T capacity} {node : Node T}
  {events : List (DeploymentEvent T)} {a b : T.Block}

/-- `World.keepsUp` of the steps of the world. -/
def keepsUp (a b : T.Block) (d : Deployment T capacity) : DeploymentEvent T → Bool
  | .world event => d.world.keepsUp a b event
  | _ => true

/-- A reported branch is a deep reorg to the monitor, once it has received everything.
The depth is at least the length of the branch, which the threshold does not exceed. -/
theorem exists_reorg_of_reported (hlaw : setup.env.Lawful T)
    (hrun : run (step setup eventsAt) (init setup node) events = some d)
    (hdepth : setup.stallAndReorg.reorgDepthThreshold ≤ a.number - (T.tree.lca a b).number)
    (hreported : Reported a b d.alerter.process.listener.sent)
    (hcaught : d.alerter.process.watcherTaken = d.alerter.process.listener.sent) :
    ∃ reorg ∈ d.alerter.process.watcher.reorgs,
      ∀ x ∈ T.tree.branch b a, x.hashAndNumber ∈ reorg.retracted := by
  obtain ⟨message, hmem, data, hdata, hcover, hlength⟩ := hreported
  obtain ⟨alerterEvents, halerter⟩ := run_alerter hrun
  -- The message ends with the new best block.
  obtain ⟨old, new, x, y, -, rfl, hyx, -, -⟩ := run_genuine hlaw hrun message hmem
  have hlast := (anchored_broadcast hyx).last
  rw [(Alerter.watcher_reorgs halerter).2, hcaught]
  have halerted : alertedReorg setup.stallAndReorg (T.broadcast x y) =
      some { bestBlock := y.blockExt.hashAndNumber, commonBlock := data.commonBlock
             enacted := data.enacted, retracted := data.retracted } := by
    simp only [alertedReorg, hlast, hdata]
    exact if_pos (hdepth.trans hlength)
  exact ⟨_, List.mem_filterMap.mpr ⟨_, hmem, halerted⟩, hcover⟩

end Deployment

/-- A deep reorg of the node gets to Slack, if the listener keeps up with it. Take any
run beside an honest node, and two branches that end in `a` and `b`, where `a` is at
least the threshold of blocks off `b`'s chain. At one moment the listener is at `a` or
above it, and not in the middle of a tree route, which would move it to a block that it
has already found canonical. From there on the connection holds, no canonical check up
to that of `b` is made while the node's chain leaves `a`'s inside the branch, and that
of `b` is made while `b` is on the node's chain. All other tasks may run in any order,
and the node may import blocks and change its best block. Once the listener is idle
again, the monitor has received and the Slack task has posted everything, Slack has been
sent the alert of a reorg that retracts all of `a`'s branch. -/
theorem deep_reorg_posted (capacity : Nat) (setup : Setup) (T : BlockTree setup.env)
    (hlaw : setup.env.Lawful T) (eventsAt : BlockHash → List EventDetails) (node : Node T)
    (a b c : T.Block) (hab : ¬ T.tree.IsAncestor a b) (hba : ¬ T.tree.IsAncestor b a)
    (hdepth : setup.stallAndReorg.reorgDepthThreshold ≤ a.number - (T.tree.lca a b).number)
    (before late rest : List (DeploymentEvent T)) (d d' e e' : Deployment T capacity)
    (best best' : HashAndNumber)
    (hbefore : run (Deployment.step setup eventsAt) (Deployment.init setup node) before = some d)
    (hadopted : d.alerter.process.listener.currentBestBlock = some c.hashAndNumber)
    (hroute : ∀ best block missing,
      d.alerter.process.listener.phase ≠ .listenRoute best block missing)
    (hac : T.tree.IsAncestor a c)
    (hkeeps : AllSteps (Deployment.step setup eventsAt)
      (fun d event => d.keepsUp a b event = true) d late)
    (hlate : run (Deployment.step setup eventsAt) d late = some d')
    (hphase : d'.alerter.process.listener.phase = .listenCanonical best b.item)
    (hb : T.tree.IsAncestor b d'.node.best)
    (hcheck : d'.step setup eventsAt (.world .answer) = some e)
    (hconnected : ∀ event ∈ rest.filterMap Deployment.worldEvent?, event.isLoss = false)
    (hrest : run (Deployment.step setup eventsAt) e rest = some e')
    (hidle : e'.alerter.process.listener.phase = .listenNext best')
    (hcaught : e'.alerter.process.watcherTaken = e'.alerter.process.listener.sent)
    (hend : e'.alerter.slack.phase.isEnd = false) (hqueue : e'.alerter.alerts.queue = []) :
    ∃ posted reorg, e'.alerter.Posted setup posted ∧ .reorg reorg ∈ posted ∧
      ∀ x ∈ T.tree.branch b a, x.hashAndNumber ∈ reorg.retracted := by
  have hworld : run World.step (World.init node) (before.filterMap Deployment.worldEvent?) =
      some d.world := Deployment.shows_world.run before _ d hbefore
  obtain ⟨s, htracks⟩ := World.run_tracks hlaw hworld
  have hd : OnBranch a b ⟨d.world, []⟩ := World.onBranch_of_best htracks hadopted hroute hac
  have hd' : OnBranch a b ⟨d'.world, []⟩ := by
    refine run_invariant_of_allSteps (P := fun w => OnBranch a b ⟨w, []⟩)
      (fun w event w' h hkeeps hstep => World.step_onBranch hlaw hab h hkeeps hstep) _ d.world
      d'.world hd ?_ (Deployment.shows_world.run late d d' hlate)
    refine Deployment.shows_world.allSteps late d d' hlate (hkeeps.imp fun d event h e he => ?_)
    cases event with
    | world event =>
        cases he
        exact h
    | _ => cases he
  have hanswer : d'.world.step .answer = some e.world :=
    Deployment.shows_world d' (.world .answer) e hcheck
  have he : LeavesBranch a b ⟨e.world, []⟩ :=
    step_check hlaw hab hba hd' hphase hb (by simp [Subscribed.step, hanswer])
  have hall : AllSteps World.step (fun _ event => event.isLoss = false) e.world
      (rest.filterMap Deployment.worldEvent?) := by
    refine allSteps_iff.mpr fun first event later w hsplit _ => hconnected event ?_
    rw [hsplit]
    exact List.mem_append_right _ List.mem_cons_self
  have he' : LeavesBranch a b ⟨e'.world, []⟩ :=
    run_invariant_of_allSteps (P := fun w => LeavesBranch a b ⟨w, []⟩)
      (fun w event w' h hloss hstep => World.step_leavesBranch hlaw hab h hloss hstep) _ e.world
      e'.world he hall (Deployment.shows_world.run rest e e' hrest)
  have hreported : Reported a b e'.world.listener.sent := World.reported_of_idle he' hidle
  have hrun : run (Deployment.step setup eventsAt) (Deployment.init setup node)
      (before ++ late ++ .world .answer :: rest) = some e' :=
    run_append_eq_some.mpr ⟨d', run_append_eq_some.mpr ⟨d, hbefore, hlate⟩,
      run_cons_eq_some.mpr ⟨e, hcheck, hrest⟩⟩
  obtain ⟨reorg, hreorg, hretracted⟩ :=
    Deployment.exists_reorg_of_reported hlaw hrun hdepth hreported hcaught
  obtain ⟨alerterEvents, halerter⟩ := Deployment.run_alerter hrun
  obtain ⟨posted, hposted, -, hall⟩ := Alerter.exists_posted_reorgs halerter
  rw [← hall hend hqueue] at hreorg
  obtain ⟨alert, hmem, halert⟩ := List.mem_filterMap.mp hreorg
  cases alert with
  | reorg reorg' =>
      cases halert
      exact ⟨posted, reorg, hposted, hmem, hretracted⟩
  | _ => cases halert

/-- The listener follows the node to `3`. -/
def adoptedDeploymentEvents : List (DeploymentEvent forkTree) :=
  (forkStart ++ [WorldEvent.importBlock (forkBlock 3) true, .deliver (forkBlock 3), .answer]).map
    .world

/-- The best block of the node becomes `4`, on the other fork, and the listener is
about to check it. -/
def switchDeploymentEvents : List (DeploymentEvent forkTree) :=
  [.world (.importBlock (forkBlock 4) false), .alerter (.session (.ok ())),
   .world (.setBest (forkBlock 4)), .world (.deliver (forkBlock 4))]

/-- The monitor receives both messages, and the Slack task posts the alert. -/
def postDeploymentEvents : List (DeploymentEvent forkTree) :=
  [.alerter (.process (.recv .stallAndReorg)), .alerter (.process (.recv .stallAndReorg)),
   .alerter .recvAlert]

/-- The reorg from `3` to `4` is posted. -/
theorem deep_reorg_posted_fork :
    ∃ (d : Deployment forkTree 4) (posted : List Alert) (reorg : ChainReorg),
      run (Deployment.step sampleSetup fun _ => []) (Deployment.init sampleSetup forkNode)
        (adoptedDeploymentEvents ++ switchDeploymentEvents ++
          .world .answer :: postDeploymentEvents) = some d ∧
      d.alerter.slack.requests.length = 1 ∧ d.alerter.Posted sampleSetup posted ∧
      .reorg reorg ∈ posted ∧ (forkBlock 3).hashAndNumber ∈ reorg.retracted := by
  have hthree : ¬ forkTree.tree.IsAncestor (forkBlock 3) (forkBlock 4) := by decide
  have hfour : ¬ forkTree.tree.IsAncestor (forkBlock 4) (forkBlock 3) := by decide
  obtain ⟨posted, reorg, hposted, hmem, hretracted⟩ := deep_reorg_posted 4 sampleSetup forkTree
    forkTree_lawful (fun _ => []) forkNode (forkBlock 3) (forkBlock 4) (forkBlock 3) hthree hfour
    (by decide) adoptedDeploymentEvents switchDeploymentEvents postDeploymentEvents _ _ _ _ _ _
    rfl rfl (by intro _ _ _ h; cases h) (ParentTree.IsAncestor.refl _ _)
    (@of_decide_eq_true _ (@decidableAllSteps _ _ _ _ (fun _ _ => instDecidableEqBool _ _) _ _) rfl)
    rfl rfl (ParentTree.IsAncestor.refl _ _) rfl (by decide) rfl rfl rfl rfl rfl
  have hbranch : forkBlock 3 ∈ forkTree.tree.branch (forkBlock 4) (forkBlock 3) :=
    ParentTree.mem_branch.mpr ⟨ParentTree.IsAncestor.refl _ _, hthree⟩
  exact ⟨_, posted, reorg, rfl, rfl, hposted, hmem, hretracted (forkBlock 3) hbranch⟩

end ChainAlerter
