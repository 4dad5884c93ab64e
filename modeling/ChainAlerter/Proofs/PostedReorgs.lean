import ChainAlerter.Proofs.Delivery
import ChainAlerter.Proofs.Deployment

/-!
# `ChainAlerter.Proofs.PostedReorgs`: the reorgs that Slack shows

A reorg goes through four tasks and two channels: the listener notices that its best
block changes, the stall and reorg monitor compares the depth with the threshold, and
the Slack task posts the alert.

`posted_reorgs_exact` is the result for all of them together, for any replies with
blocks of one tree: the reorgs that were posted are an initial segment of the deep
changes of the best block. `posted_reorgs_truthful` puts an honest node beside the
alerter, and says what each posted reorg tells about the node's chain.
-/

set_option autoImplicit false

namespace ChainAlerter

open ChainAlerter.Library
open ChainAlerter.Abstract

/-! ### From the messages to the posted reorgs -/

/-- The reorgs of a monitor are those of the messages that it has received. Timeouts and
errors send none, and a message sends one at most. -/
theorem Process.WatcherActsOn.reorgs {config : StallAndReorgConfig} {w : Watcher}
    {taken : List BlocksExt}
    (h : WatcherActsOn config w taken) : w.reorgs = taken.filterMap (alertedReorg config) := by
  obtain ⟨events, hrun, rfl⟩ := h
  refine run_history (P := fun events w =>
    w.reorgs = (events.filterMap WatchEvent.message?).filterMap (alertedReorg config))
    rfl (fun events w event w' _ hreorgs hstep => ?_) events w hrun
  rw [List.filterMap_append, List.filterMap_append, ← hreorgs]
  have hround := (Watcher.step_round hstep).2
  have hmessage : w'.reorgs = w.reorgs ++ (event.message?.bind (alertedReorg config)).toList := by
    cases hround with
    | block blocksExt latest hlast hstatus hbest hstall =>
        exact reorgs_recvBlocks config w blocksExt
    | empty blocksExt hlast =>
        simp [WatchEvent.message?, alertedReorg, hlast, Watcher.reorgs]
    | closed err => simp [WatchEvent.message?, Watcher.reorgs]
    | elapsed => simp [WatchEvent.message?, reorgs_timeout]
  rw [hmessage]
  cases he : event.message? with
  | none => simp [he]
  | some message => cases hreorg : alertedReorg config message <;> simp [he, hreorg]

/-- The reorgs among alerts are among those of the stall and reorg monitor. -/
theorem filterMap_reorg?_filter (alerts : List Alert) :
    (alerts.filter fun alert => alert.source = .stallAndReorg).filterMap Alert.reorg? =
      alerts.filterMap Alert.reorg? := by
  rw [List.filterMap_filter]
  refine List.filterMap_congr fun alert _ => ?_
  cases alert <;> rfl

namespace Alerter

variable {capacity : Nat} {setup : Setup} {a : Alerter capacity}

/-- The reorgs that the monitor has alerted are those of the messages that it has
received, which are an initial segment of the messages that were sent. -/
theorem watcher_reorgs {events : List AlerterEvent}
    (hrun : run (step setup) (init setup) events = some a) :
    a.process.watcherTaken <+: a.process.listener.sent ∧
      a.process.watcher.reorgs =
        a.process.watcherTaken.filterMap (alertedReorg setup.stallAndReorg) := by
  obtain ⟨events', hprocess⟩ := run_process hrun
  have htaken := (Process.run_feed_sound hprocess .stallAndReorg).taken_initial
  rw [Process.taken_feed, Process.sent_feed] at htaken
  have hacts : Process.WatcherActsOn setup.stallAndReorg a.process.watcher a.process.watcherTaken :=
    Process.run_actsOnTaken hprocess .stallAndReorg
  exact ⟨htaken, hacts.reorgs⟩

/-- The posted reorgs are an initial segment of the alerted ones. Once the Slack task
has posted all alerts, they are all. -/
theorem exists_posted_reorgs {events : List AlerterEvent}
    (hrun : run (step setup) (init setup) events = some a) :
    ∃ posted, a.Posted setup posted ∧
      posted.filterMap Alert.reorg? <+: a.process.watcher.reorgs ∧
      (a.slack.phase.isEnd = false → a.alerts.queue = [] →
        posted.filterMap Alert.reorg? = a.process.watcher.reorgs) := by
  obtain ⟨posted, hposted, hinitial, hall⟩ := exists_posted hrun
  refine ⟨posted, hposted, ?_, fun hend hqueue => ?_⟩
  · rw [← filterMap_reorg?_filter posted]
    exact (hinitial .stallAndReorg).filterMap Alert.reorg?
  · have hfilter := hall hend .stallAndReorg
    rw [hqueue, List.append_nil] at hfilter
    rw [← filterMap_reorg?_filter posted, hfilter]
    rfl

end Alerter

/-- The reorgs that Slack shows are exactly the deep ones, in every interleaving of all
tasks. The replies to the listener hold blocks of one tree. The changes of the
listener's best block are moves in the tree. The posted reorgs are an initial segment of
the moves away from the old best block whose depth reaches the threshold, in their
order, with the new best block, the common block and every retracted block of each. Once
all messages have been received and all alerts posted, they are all of them. -/
theorem posted_reorgs_exact (capacity : Nat) (setup : Setup) (T : BlockTree setup.env)
    (hlaw : setup.env.Lawful T) (events : List AlerterEvent) (a : Alerter capacity)
    (hreplies : AllSteps (Alerter.step setup)
      (fun a event => (Alerter.reply? event).all (fromTree T a.process.listener) = true)
      (Alerter.init setup : Alerter capacity) events)
    (hrun : run (Alerter.step setup) (Alerter.init setup) events = some a) :
    ∃ (moves : List (T.Block × T.Block)) (posted : List Alert),
      bestChanges setup.env Listener.init (events.filterMap Alerter.reply?) = moves.map moveEnds ∧
      a.Posted setup posted ∧
      (posted.filterMap Alert.reorg?).map ChainReorg.report <+:
        (moves.filter (deep setup.stallAndReorg)).map moveReport ∧
      (a.process.taken .stallAndReorg = a.process.listener.sent → a.slack.phase.isEnd = false →
        a.alerts.queue = [] →
        (posted.filterMap Alert.reorg?).map ChainReorg.report =
          (moves.filter (deep setup.stallAndReorg)).map moveReport) := by
  have hstore : AllSteps (Listener.step setup.env) (FromStore (AnyBlock T)) Listener.init
      (events.filterMap Alerter.reply?) := by
    refine Alerter.shows_listener.allSteps events _ a hrun (hreplies.imp fun b event hall => ?_)
    intro reply hreply
    rw [hreply] at hall
    exact fromStore_of_fromTree hall
  obtain ⟨moves, -, -, hsent, hchanges, hmoves⟩ :=
    run_moves hlaw (events.filterMap Alerter.reply?) tracks_init hstore (Alerter.run_listener hrun)
  have hreorgs : (a.process.listener.sent.filterMap (alertedReorg setup.stallAndReorg)).map
      ChainReorg.report = (moves.filter (deep setup.stallAndReorg)).map moveReport := by
    rw [hsent]
    exact filterMap_alertedReorg setup.stallAndReorg moves hmoves
  obtain ⟨htaken, halerted⟩ := Alerter.watcher_reorgs hrun
  obtain ⟨posted, hposted, hinitial, hall⟩ := Alerter.exists_posted_reorgs hrun
  refine ⟨moves, posted, hchanges, hposted, ?_, fun hcaught hend hqueue => ?_⟩
  · rw [halerted] at hinitial
    rw [← hreorgs]
    exact (hinitial.trans (htaken.filterMap _)).map _
  · have hcaught : a.process.watcherTaken = a.process.listener.sent := hcaught
    rw [← hreorgs, hall hend hqueue, halerted, hcaught]

/-- The listener goes from `2` to `3`, and over to the fork at `4`. The monitor receives
both messages, and the Slack task the alert. -/
def forkAlerterEvents : List AlerterEvent :=
  (sessionReplies 1 ++ received (forkBlock 3) 3 ++ received (forkBlock 4) 4).map
      (fun reply => .process (.listen reply)) ++
    [.process (.recv .stallAndReorg), .process (.recv .stallAndReorg), .session (.ok ()),
     .recvAlert]

/-- The reorg from `3` to `4` is posted, and it is the only one. -/
theorem posted_reorgs_exact_fork :
    ∃ (a : Alerter 4) (moves : List (forkTree.Block × forkTree.Block)) (posted : List Alert),
      run (Alerter.step sampleSetup) (Alerter.init sampleSetup) forkAlerterEvents = some a ∧
      a.slack.requests.length = 1 ∧ a.Posted sampleSetup posted ∧
      (posted.filterMap Alert.reorg?).map ChainReorg.report =
        (moves.filter (deep sampleSetup.stallAndReorg)).map moveReport ∧
      bestChanges walkExternals Listener.init (forkAlerterEvents.filterMap Alerter.reply?) =
        moves.map moveEnds := by
  have heval : ((run (Alerter.step sampleSetup) (Alerter.init sampleSetup : Alerter 4)
      forkAlerterEvents).map fun a => (a.slack.requests.length, a.slack.phase, a.alerts.queue,
        decide (a.process.watcherTaken = a.process.listener.sent))) =
      some (1, .posting, [], true) := by
    decide +kernel
  simp only [Option.map_eq_some_iff, Prod.mk.injEq, decide_eq_true_eq] at heval
  obtain ⟨a, hrun, hlength, hphase, hqueue, hcaught⟩ := heval
  obtain ⟨moves, posted, hchanges, hposted, -, hall⟩ := posted_reorgs_exact 4 sampleSetup forkTree
    forkTree_lawful forkAlerterEvents a (by decide +kernel) hrun
  exact ⟨a, moves, posted, hrun, hlength, hposted, hall hcaught (by rw [hphase]; rfl) hqueue,
    hchanges⟩

/-! ### What a posted reorg tells -/

/-- The reorg is one from the chain of `old` to that of `new`: the retracted blocks are
on the first one only, the enacted ones and the best block on the second one only, and
the common block on both. -/
structure ReorgBetween {env : Externals} (T : BlockTree env) (reorg : ChainReorg)
    (old new : T.Block) :
    Prop where
  nonempty : reorg.retracted ≠ []
  retracted : ∀ x ∈ reorg.retracted,
    ∃ y : T.Block, x = y.hashAndNumber ∧ T.tree.IsAncestor y old ∧ ¬ T.tree.IsAncestor y new
  enacted : ∀ x ∈ reorg.enacted,
    ∃ y : T.Block, x = y.hashAndNumber ∧ T.tree.IsAncestor y new ∧ ¬ T.tree.IsAncestor y old
  best : ∃ y : T.Block, reorg.bestBlock = y.hashAndNumber ∧ T.tree.IsAncestor y new ∧
    ¬ T.tree.IsAncestor y old
  common : ∃ y : T.Block, reorg.commonBlock = y.hashAndNumber ∧ T.tree.IsAncestor y old ∧
    T.tree.IsAncestor y new

/-- What an alert about a reorg says of its message: the best block is the last one of
the message, and the common and the retracted blocks are those of its reorg data, deep
enough for the threshold. -/
theorem alertedReorg_eq_some {config : StallAndReorgConfig} {message : BlocksExt}
    {reorg : ChainReorg}
    (h : alertedReorg config message = some reorg) :
    ∃ latest data, message.blocks.getLast? = some latest ∧ message.maybeReorgData = some data ∧
      config.reorgDepthThreshold ≤ data.retracted.length ∧
      reorg = { bestBlock := latest.hashAndNumber, commonBlock := data.commonBlock
                enacted := data.enacted, retracted := data.retracted } := by
  unfold alertedReorg at h
  split at h
  · rename_i latest data hlast hdata
    split at h
    · rename_i hdeep
      exact ⟨latest, data, hlast, hdata, hdeep, (Option.some.inj h).symm⟩
    · cases h
  · cases h

/-- The reorg of a move between blocks of the two chains. The ends of the move are on
the chains of the two best blocks, so its branches are as well. -/
theorem reorgBetween_of_broadcast {env : Externals} {T : BlockTree env}
    {config : StallAndReorgConfig}
    {old new a b : T.Block} {reorg : ChainReorg} (hba : ¬ T.tree.IsAncestor b a)
    (haold : T.tree.IsAncestor a old) (hbnew : T.tree.IsAncestor b new)
    (h : alertedReorg config (T.broadcast a b) = some reorg) : ReorgBetween T reorg old new := by
  obtain ⟨latest, data, hlast, hdata, -, rfl⟩ := alertedReorg_eq_some h
  obtain ⟨hab, rfl⟩ := maybeReorgData_eq_some hdata
  rw [(anchored_broadcast hba).last] at hlast
  cases hlast
  have henacted : ∀ y ∈ T.tree.branch a b, T.tree.IsAncestor y new ∧ ¬ T.tree.IsAncestor y old := by
    intro y hy
    exact ⟨(ParentTree.mem_branch.mp hy).1.trans hbnew,
      ParentTree.not_isAncestor_of_mem_branch hab haold hy⟩
  refine ⟨?_, ?_, ?_, ?_, ?_⟩
  · intro hnil
    exact hab (ParentTree.branch_eq_nil_iff.mp (List.map_eq_nil_iff.mp hnil))
  · intro x hx
    obtain ⟨y, hy, rfl⟩ := List.mem_map.mp hx
    exact ⟨y, rfl, (ParentTree.mem_branch.mp hy).1.trans haold,
      ParentTree.not_isAncestor_of_mem_branch hba hbnew hy⟩
  · intro x hx
    obtain ⟨y, hy, rfl⟩ := List.mem_map.mp (List.mem_of_mem_dropLast hx)
    exact ⟨y, rfl, henacted y hy⟩
  · exact ⟨b, rfl, henacted b (ParentTree.mem_branch.mpr ⟨.refl _ b, hba⟩)⟩
  · exact ⟨T.tree.lca a b, rfl, (ParentTree.lca_isAncestor_left a b).trans haold,
      (ParentTree.lca_isAncestor_right a b).trans hbnew⟩

/-- What Slack shows of reorgs is true of the node. The node may change its best
block at any time, connections may be lost, and the tasks run in any order. For each
reorg that was alerted, which are those that are posted, there are two moments of the
run. On the node's chain at the first one are the retracted blocks, at least as many
as the threshold and at least one, and at the later one the new best block and the
enacted blocks. None of them is on the chain of the other moment, and the common
block is on both. -/
theorem posted_reorgs_truthful (capacity : Nat) (setup : Setup) (T : BlockTree setup.env)
    (hlaw : setup.env.Lawful T) (eventsAt : BlockHash → List EventDetails) (node : Node T)
    (events : List (DeploymentEvent T)) (d : Deployment T capacity)
    (hrun : run (Deployment.step setup eventsAt) (Deployment.init setup node) events = some d) :
    (∃ posted, d.alerter.Posted setup posted ∧
      posted.filterMap Alert.reorg? <+: d.alerter.process.watcher.reorgs) ∧
    ∀ reorg ∈ d.alerter.process.watcher.reorgs,
      setup.stallAndReorg.reorgDepthThreshold ≤ reorg.retracted.length ∧
      ∃ (before now : List (DeploymentEvent T)) (d₁ d₂ : Deployment T capacity),
        before <+: now ∧ now <+: events ∧
        run (Deployment.step setup eventsAt) (Deployment.init setup node) before = some d₁ ∧
        run (Deployment.step setup eventsAt) (Deployment.init setup node) now = some d₂ ∧
        ReorgBetween T reorg d₁.node.best d₂.node.best := by
  obtain ⟨events', halerter⟩ := Deployment.run_alerter hrun
  obtain ⟨htaken, halerted⟩ := Alerter.watcher_reorgs halerter
  obtain ⟨posted, hposted, hinitial, -⟩ := Alerter.exists_posted_reorgs halerter
  refine ⟨⟨posted, hposted, hinitial⟩, fun reorg hreorg => ?_⟩
  rw [halerted] at hreorg
  obtain ⟨message, hmessage, hsome⟩ := List.mem_filterMap.mp hreorg
  obtain ⟨old, new, a, b, hmoments, rfl, hba, haold, hbnew⟩ :=
    Deployment.run_genuine hlaw hrun message (htaken.subset hmessage)
  have hbetween := reorgBetween_of_broadcast hba haold hbnew hsome
  obtain ⟨latest, data, -, -, hdeep, rfl⟩ := alertedReorg_eq_some hsome
  obtain ⟨before, now, hbefore, hnow, ⟨d₁, hd₁, rfl⟩, ⟨d₂, hd₂, rfl⟩⟩ := hmoments
  exact ⟨hdeep, before, now, d₁, d₂, hbefore, hnow, hd₁, hd₂, hbetween⟩

/-- The node goes over to the fork, and the listener and the monitor with it. -/
def forkDeploymentEvents : List (DeploymentEvent forkTree) :=
  (forkSwitch ++ [WorldEvent.answer]).map .world ++
    [.alerter (.process (.recv .stallAndReorg)), .alerter (.process (.recv .stallAndReorg))]

/-- The reorg that is alerted is one between the chains of the node at two
moments of the run. -/
theorem posted_reorgs_truthful_fork :
    ∃ (d d₁ d₂ : Deployment forkTree 4) (reorg : ChainReorg)
      (before now : List (DeploymentEvent forkTree)),
      run (Deployment.step sampleSetup fun _ => []) (Deployment.init sampleSetup forkNode)
        forkDeploymentEvents = some d ∧
      d.alerter.process.watcher.reorgs = [reorg] ∧
      before <+: now ∧ now <+: forkDeploymentEvents ∧
      run (Deployment.step sampleSetup fun _ => []) (Deployment.init sampleSetup forkNode)
        before = some d₁ ∧
      run (Deployment.step sampleSetup fun _ => []) (Deployment.init sampleSetup forkNode)
        now = some d₂ ∧
      ReorgBetween forkTree reorg d₁.node.best d₂.node.best := by
  have heval : ((run (Deployment.step sampleSetup fun _ => [])
      (Deployment.init sampleSetup forkNode : Deployment forkTree 4) forkDeploymentEvents).map
        fun d => d.alerter.process.watcher.reorgs) =
      some [{ bestBlock := ⟨2, 4⟩, commonBlock := ⟨1, 2⟩, enacted := []
              retracted := [⟨2, 3⟩] }] := by
    decide +kernel
  obtain ⟨d, hrun, hreorgs⟩ := Option.map_eq_some_iff.mp heval
  have htrue := (posted_reorgs_truthful 4 sampleSetup forkTree forkTree_lawful (fun _ => [])
    forkNode forkDeploymentEvents d hrun).2 _ (by rw [hreorgs]; exact List.mem_singleton_self _)
  obtain ⟨-, before, now, d₁, d₂, hbefore, hnow, hd₁, hd₂, hbetween⟩ := htrue
  exact ⟨d, d₁, d₂, _, before, now, hrun, hreorgs, hbefore, hnow, hd₁, hd₂, hbetween⟩

end ChainAlerter
