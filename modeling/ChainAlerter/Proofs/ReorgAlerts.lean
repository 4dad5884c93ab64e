import ChainAlerter.Proofs.Broadcast

/-!
# `ChainAlerter.Proofs.ReorgAlerts`: the reorg alerts of a session

The listener and the stall and reorg monitor are two tasks with a broadcast
channel between them. The monitor receives the messages of the listener in
order, and its timeouts fire anywhere between them (`Feeds`).

`run_reorgAlerts` is the run lemma of the monitor: its reorg alerts are those of
the messages, whatever the timeouts. With the run lemma of the listener,
`listenRun_moves`, the alerts are a function of the changes of the current best
block, and `reorgAlerts_exact` says which.
-/

set_option autoImplicit false

namespace ChainAlerter

open ChainAlerter.Library
open ChainAlerter.Abstract

variable {env : Externals} {T : BlockTree env}

/-! ### The monitor on a sequence of messages -/

/-- The result that a wait of the monitor received, when it did not time out. -/
def WatchEvent.result? : WatchEvent → Option (Except RecvError BlocksExt)
  | .recv result => some result
  | .elapsed => none

/-- The monitor receives the messages in order, with timeouts anywhere between them. -/
def Feeds (messages : List BlocksExt) (events : List WatchEvent) : Prop :=
  events.filterMap WatchEvent.result? = messages.map .ok

/-- The reorgs that the monitor has alerted, oldest first. -/
def Watcher.reorgs (w : Watcher) : List ChainReorg := w.alerts.filterMap Alert.reorg?

/-- The reorg that a message makes the monitor alert. -/
def alertedReorg (config : StallAndReorgConfig) (message : BlocksExt) : Option ChainReorg :=
  match message.blocks.getLast?, message.maybeReorgData with
  | some latest, some data =>
      if config.reorgDepthThreshold ≤ data.retracted.length then
        some { bestBlock := latest.hashAndNumber, commonBlock := data.commonBlock
               enacted := data.enacted, retracted := data.retracted }
      else none
  | _, _ => none

/-- The recovery alert of a message is not a reorg alert. -/
theorem filterMap_recoveryAlerts (latest : HashAndNumber) (timeout : Option Nat) :
    (Watcher.recoveryAlerts latest timeout).filterMap Alert.reorg? = [] := by
  cases timeout <;> rfl

/-- The report of a reorg is made exactly when the message has reorg data with enough
retracted blocks, and it has the fields of that data. -/
theorem filterMap_reorgAlerts (config : StallAndReorgConfig) (latest : HashAndNumber)
    (data : Option ReorgData) :
    (Watcher.reorgAlerts config latest data).filterMap Alert.reorg?
      = (data.bind fun data =>
          if config.reorgDepthThreshold ≤ data.retracted.length then
            some { bestBlock := latest, commonBlock := data.commonBlock
                   enacted := data.enacted, retracted := data.retracted : ChainReorg }
          else none).toList := by
  cases data with
  | none => rfl
  | some data =>
      simp only [Watcher.reorgAlerts, Option.bind_some]
      split
      · rfl
      · rfl

/-- A message adds the reorg it makes the monitor alert, and a recovery is none. So the
reorgs of a run are read off its messages, one by one. -/
theorem reorgs_recvBlocks (config : StallAndReorgConfig) (w : Watcher) (message : BlocksExt) :
    (w.recvBlocks config message).reorgs = w.reorgs ++ (alertedReorg config message).toList := by
  unfold Watcher.recvBlocks Watcher.reorgs alertedReorg
  cases hlast : message.blocks.getLast? with
  | none => simp
  | some latest =>
      simp only [List.filterMap_append, filterMap_recoveryAlerts, filterMap_reorgAlerts,
        List.append_nil]
      cases message.maybeReorgData with
      | none => rfl
      | some data => rfl

/-- A timeout adds no reorg. -/
theorem reorgs_timeout (config : StallAndReorgConfig) (w : Watcher) :
    (w.timeout config).reorgs = w.reorgs := by
  unfold Watcher.timeout Watcher.reorgs
  simp only [List.filterMap_append]
  cases w.maybeLastBestBlock with
  | none => simp
  | some last => simp [Alert.reorg?]

/-- The run lemma of the monitor: on messages with blocks it keeps running, and its
reorg alerts are those of the messages. -/
theorem run_reorgAlerts (config : StallAndReorgConfig) (events : List WatchEvent) :
    ∀ {messages : List BlocksExt} {w : Watcher}, Feeds messages events →
      (∀ message ∈ messages, message.blocks ≠ []) → w.status = .running →
      ∃ w', run (Watcher.step config) w events = some w' ∧ w'.status = .running ∧
        w'.reorgs = w.reorgs ++ messages.filterMap (alertedReorg config) := by
  induction events with
  | nil =>
      intro messages w hfeeds _ hw
      have hnil : messages = [] := by
        simpa [Feeds] using hfeeds.symm
      subst hnil
      exact ⟨w, rfl, hw, by simp⟩
  | cons event events ih =>
      intro messages w hfeeds hne hw
      cases event with
      | elapsed =>
          -- A timeout takes no message.
          have hrest : Feeds messages events := hfeeds
          have hrunning : (w.timeout config).status = .running := hw
          obtain ⟨w', hrun, hw', hreorgs⟩ := ih hrest hne hrunning
          refine ⟨w', run_cons_eq_some.mpr ⟨w.timeout config, ?_, hrun⟩, hw', ?_⟩
          · simp [Watcher.step, hw]
          · rw [hreorgs, reorgs_timeout]
      | recv result =>
          -- A received result is the next message.
          cases messages with
          | nil => simp [Feeds, WatchEvent.result?] at hfeeds
          | cons message messages =>
              have hfirst : result = .ok message ∧ Feeds messages events := by
                simpa [Feeds, WatchEvent.result?] using hfeeds
              obtain ⟨rfl, hrest⟩ := hfirst
              have hrunning := recvBlocks_running config w (hne message List.mem_cons_self) hw
              obtain ⟨w', hrun, hw', hreorgs⟩ := ih hrest
                (fun message' hmem => hne message' (List.mem_cons_of_mem _ hmem)) hrunning
              refine ⟨w', run_cons_eq_some.mpr ⟨w.recvBlocks config message, ?_, hrun⟩, hw', ?_⟩
              · simp [Watcher.step, hw]
              · rw [hreorgs, reorgs_recvBlocks, List.append_assoc]
                cases hreorg : alertedReorg config message with
                | none => simp [hreorg]
                | some reorg => simp [hreorg]

/-! ### The alerts of the moves -/

/-- The move retracts the old best block, and at least the threshold of blocks. -/
def deep (config : StallAndReorgConfig) (m : T.Block × T.Block) : Bool :=
  ¬ T.tree.IsAncestor m.1 m.2 ∧
    config.reorgDepthThreshold ≤ m.1.number - (T.tree.lca m.1 m.2).number

/-- The best block, the common block and the retracted blocks that an alert reports. -/
def ChainReorg.report (reorg : ChainReorg) : HashAndNumber × HashAndNumber × List HashAndNumber :=
  (reorg.bestBlock, reorg.commonBlock, reorg.retracted)

/-- What the alert for a move should report. -/
def moveReport (m : T.Block × T.Block) : HashAndNumber × HashAndNumber × List HashAndNumber :=
  (m.2.hashAndNumber, (T.tree.lca m.1 m.2).hashAndNumber,
    (T.tree.branch m.2 m.1).map BlockTree.Block.hashAndNumber)

/-- The broadcast of a move makes the monitor alert exactly when the move is
deep. The threshold is compared with the number of retracted blocks, which is the
depth of the move. -/
theorem alertedReorg_broadcast (config : StallAndReorgConfig) {a b : T.Block}
    (hba : ¬ T.tree.IsAncestor b a) :
    (alertedReorg config (T.broadcast a b)).map ChainReorg.report
      = if deep config (a, b) then some (moveReport (a, b)) else none := by
  have hlast := (anchored_broadcast hba).last
  unfold alertedReorg
  rw [hlast]
  cases hdata : (T.broadcast a b).maybeReorgData with
  | none =>
      -- No reorg data: `a` is an ancestor of `b`, and the move is not deep at any threshold.
      have hab := maybeReorgData_eq_none_iff.mp hdata
      simp [deep, hab]
  | some data =>
      obtain ⟨hab, rfl⟩ := maybeReorgData_eq_some hdata
      -- The threshold is compared with the length of the branch down from `a`.
      simp only [List.length_map, length_retracted, deep, hab, not_false_eq_true, true_and,
        decide_eq_true_eq]
      split
      · rfl
      · rfl

/-- Over the broadcasts of moves that leave a branch, the alerts are the reports of the
deep ones, in their order. No other move is reported, and no deep one is left out. -/
theorem filterMap_alertedReorg (config : StallAndReorgConfig) (moves : List (T.Block × T.Block))
    (hmoves : ∀ m ∈ moves, ¬ T.tree.IsAncestor m.2 m.1) :
    ((moves.map (fun m => T.broadcast m.1 m.2)).filterMap (alertedReorg config)).map
        ChainReorg.report
      = (moves.filter (deep config)).map moveReport := by
  induction moves with
  | nil => rfl
  | cons m moves ih =>
      have hrest := ih fun m' hm' => hmoves m' (List.mem_cons_of_mem _ hm')
      have hm := alertedReorg_broadcast config (hmoves m List.mem_cons_self)
      rw [List.map_cons, List.filterMap_cons, List.filter_cons]
      -- The message is alerted exactly when the filter keeps the move.
      cases hreorg : alertedReorg config (T.broadcast m.1 m.2) with
      | none =>
          rw [hreorg] at hm
          have hshallow : deep config m = false := by
            by_contra hdeep
            simp [hdeep] at hm
          simpa [hreorg, hshallow] using hrest
      | some reorg =>
          rw [hreorg] at hm
          have hdeep : deep config m = true := by
            by_contra hdeep
            simp [hdeep] at hm
          simp only [hdeep, if_true, Option.map_some, Option.some.injEq] at hm
          simpa [hreorg, hdeep, hm] using hrest

/-- The retracted blocks of a move away from `a`: a parent-linked chain from a child of
the common block up to `a`. -/
theorem branch_retracted {a b : T.Block} (hab : ¬ T.tree.IsAncestor a b) :
    (T.tree.lca a b :: T.tree.branch b a).IsChain
      (fun x y => y.parent = x ∧ y.number = x.number + 1) ∧
    (T.tree.branch b a).getLast? = some a ∧
    (T.tree.branch b a).length = a.number - (T.tree.lca a b).number := by
  refine ⟨?_, ParentTree.getLast?_branch hab, length_retracted a b⟩
  rw [ParentTree.lca_comm]
  exact ParentTree.isChain_branch (t := T.tree) b a

/-- The reorg alerts of a session are exact. For every run of the listener, and every
run of the monitor that receives its messages, the alerted reorgs are those of the
changes of the current best block from `a` to `b` with `a` not an ancestor of `b` and
at least the threshold of blocks between `a` and their lowest common ancestor, in
order. An alert reports `b`, the lowest common ancestor, and the blocks from its
child up to `a`. -/
theorem reorgAlerts_exact (hlaw : env.Lawful T) {start : T.Block} {l₀ l : Listener}
    {replies : List Reply} (hrun : ListenRun T start l₀ replies l)
    (config : StallAndReorgConfig) {events : List WatchEvent} (hfeeds : Feeds l.sent events) :
    ∃ (moves : List (T.Block × T.Block)) (w : Watcher),
      bestChanges env l₀ replies = moves.map moveEnds ∧
      run (Watcher.step config) Watcher.init events = some w ∧ w.status = .running ∧
      w.reorgs.map ChainReorg.report = (moves.filter (deep config)).map moveReport ∧
      ∀ m ∈ moves, deep config m = true →
        (T.tree.lca m.1 m.2 :: T.tree.branch m.2 m.1).IsChain
          (fun x y => y.parent = x ∧ y.number = x.number + 1) ∧
        (T.tree.branch m.2 m.1).getLast? = some m.1 ∧
        (T.tree.branch m.2 m.1).length = m.1.number - (T.tree.lca m.1 m.2).number := by
  obtain ⟨moves, -, -, hsent, hchanges, hmoves⟩ := listenRun_moves hlaw hrun
  have hne : ∀ message ∈ l.sent, message.blocks ≠ [] := by
    intro message hmem
    obtain ⟨a, b, hba, rfl⟩ := hrun.exists_move hlaw hmem
    exact (anchored_broadcast hba).nonempty
  have hinit : Watcher.init.status = .running := rfl
  obtain ⟨w, hw, hrunning, hreorgs⟩ := run_reorgAlerts config events hfeeds hne hinit
  refine ⟨moves, w, hchanges, hw, hrunning, ?_, ?_⟩
  · rw [hreorgs, hsent]
    exact filterMap_alertedReorg config moves hmoves
  · intro m _ hdeep
    have hab : ¬ T.tree.IsAncestor m.1 m.2 := by
      simp only [deep, decide_eq_true_eq] at hdeep
      exact hdeep.1
    exact branch_retracted hab

/-- A monitor that times out before it receives the messages of the fork. -/
def forkWatchEvents : List WatchEvent :=
  .elapsed :: (forkRun forkReplies).sent.map (fun message => .recv (.ok message))

/-- The reorg from `3` to `4` is alerted at threshold `1`, and nothing else is. -/
theorem reorgAlerts_exact_fork :
    ∃ (moves : List (forkTree.Block × forkTree.Block)) (w : Watcher),
      bestChanges walkExternals forkListener forkReplies = moves.map moveEnds ∧
      run (Watcher.step ⟨60, 1⟩) Watcher.init forkWatchEvents = some w ∧
      w.reorgs.map ChainReorg.report = (moves.filter (deep ⟨60, 1⟩)).map moveReport ∧
      w.reorgs.length = 1 := by
  obtain ⟨moves, w, hchanges, hw, -, hreorgs, -⟩ := @reorgAlerts_exact _ _ forkTree_lawful _ _ _
    forkReplies (forkListener_run (by decide) rfl) ⟨60, 1⟩ forkWatchEvents rfl
  refine ⟨moves, w, hchanges, hw, hreorgs, ?_⟩
  cases hw
  decide

end ChainAlerter
