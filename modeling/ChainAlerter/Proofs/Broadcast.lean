import ChainAlerter.Library.EventRun
import ChainAlerter.Model.StallAndReorg
import ChainAlerter.Proofs.Tracks

/-!
# `ChainAlerter.Proofs.Broadcast`: what `listen_for_blocks` sends

A run of `listen_for_blocks` starts from any best block and any cache of
headers of the tree, and takes any replies that a store of the tree can give:
received blocks in any order, and any answers to the canonical checks
(`ListenRun`). A lost connection may take it through further sessions.

`listenRun_moves` is the run lemma: the messages sent are the broadcasts of the
changes of the current best block, in order. What the messages say then follows
from `T.broadcast a b` alone:

* `anchored_broadcast`: the blocks are a linked chain from the anchor of the
  move to the new best block;
* `enacted_broadcast`: the reorg data lists all of them but the last;
* `count_flatMap_branch`: how often a block is sent.
-/

set_option autoImplicit false

namespace ChainAlerter

open ChainAlerter.Library
open ChainAlerter.Abstract

variable {env : Externals} {T : BlockTree env}

/-! ### Runs -/

/-- Every block of the tree. -/
def AnyBlock (T : BlockTree env) : T.Block → Prop := fun _ => True

/-- The reply is one that a store with the headers of the tree can give: a received
block and an answered header are stored under the right hash. The answers to hash
queries are free, and so are the failures. -/
def fromTree (T : BlockTree env) (l : Listener) : Reply → Bool
  | .next (some (.ok block)) => T.header block.hash = some block.header
  | .header (.ok (some hd)) =>
      match l.phase with
      | .loadHead hash => T.header hash = some hd
      | .listenRoute _ _ hash => T.header hash = some hd
      | _ => true
  | .slotHeader _ (.ok (some hd)) => T.header (env.headerHash hd) = some hd
  | _ => true

/-- Such a reply has a meaning for the tracker. Whatever the node says, the blocks and
the headers are of the tree, and the listener only reads the rest as a verdict, a
failure or a loss. -/
theorem fromStore_of_fromTree {l : Listener} {reply : Reply} (h : fromTree T l reply = true) :
    FromStore (AnyBlock T) l reply := by
  intro l' hstep
  obtain ⟨cache, sent, phase⟩ := l
  match reply, h with
  | .subscribed (.ok ()), _ => exact ⟨_, .subscribed _⟩
  | .subscribed (.error err), _ => exact ⟨_, .notSubscribed _ err⟩
  | .next none, _ => exact ⟨_, .noBlock _⟩
  | .next (some (.error err)), _ => exact ⟨_, .blockLost _ err⟩
  | .next (some (.ok block)), h =>
      -- The item is the block that the tree stores under its hash.
      obtain ⟨b, hhash, hheader⟩ := BlockTree.Block.exists_of_header (of_decide_eq_true h)
      have hitem : block = b.item := by
        cases block
        simp only [BlockTree.Block.item, hhash, hheader]
      rw [hitem]
      exact ⟨_, .block _ b trivial⟩
  | .blockHash (.ok none), _ => exact ⟨_, .noHash _⟩
  | .blockHash (.error err), _ => exact ⟨_, .hashLost _ err⟩
  | .blockHash (.ok (some hash)), _ =>
      -- Only the two canonical checks wait for a hash.
      cases phase with
      | loadCanonical block => exact ⟨_, .loadVerdict block hash⟩
      | listenCanonical best block => exact ⟨_, .listenVerdict best block hash⟩
      | _ => cases hstep
  | .header (.ok none), _ => exact ⟨_, .noHeader _⟩
  | .header (.error err), _ => exact ⟨_, .headerLost _ err⟩
  | .header (.ok (some hd)), h =>
      cases phase with
      | loadHead hash =>
          obtain ⟨b, hhash, rfl⟩ := BlockTree.Block.exists_of_header (of_decide_eq_true h)
          exact ⟨_, .loadHeader hash b trivial hhash⟩
      | listenRoute best block hash =>
          obtain ⟨b, hhash, rfl⟩ := BlockTree.Block.exists_of_header (of_decide_eq_true h)
          exact ⟨_, .routeHeader best block hash b trivial hhash⟩
      | _ => cases hstep
  | .slotBlockHash slot answer, _ => exact ⟨_, .slotHash _ slot answer⟩
  | .slotHeader slot (.ok none), _ => exact ⟨_, .noSlotHeader _ slot⟩
  | .slotHeader slot (.error err), _ => exact ⟨_, .slotHeaderLost _ slot err⟩
  | .slotHeader slot (.ok (some hd)), h =>
      obtain ⟨b, -, rfl⟩ := BlockTree.Block.exists_of_header (of_decide_eq_true h)
      exact ⟨_, .slotHeader _ slot b trivial⟩

/-- `l` is reached by a run of `listen_for_blocks` from `l₀`, which has sent nothing yet
and starts at the best block `start`. -/
structure ListenRun (T : BlockTree env) (start : T.Block) (l₀ : Listener)
    (replies : List Reply) (l : Listener) : Prop where
  cache : l₀.headerMetadata.Within (AnyBlock T)
  phase : l₀.phase = .listenNext start.hashAndNumber
  sent : l₀.sent = []
  store : AllSteps (Listener.step env) (fun l reply => fromTree T l reply = true) l₀ replies
  run : run (Listener.step env) l₀ replies = some l

/-- The change of the current best block from one state to the next, if there is one. -/
def bestChange (l l' : Listener) : List (HashAndNumber × HashAndNumber) :=
  match l.currentBestBlock, l'.currentBestBlock with
  | some a, some b => if a = b then [] else [(a, b)]
  | _, _ => []

/-- The changes of the current best block along a run. -/
def bestChanges (env : Externals) : Listener → List Reply → List (HashAndNumber × HashAndNumber)
  | _, [] => []
  | l, reply :: replies =>
      match l.step env reply with
      | some l' => bestChange l l' ++ bestChanges env l' replies
      | none => []

/-- The two ends of a move, as the listener holds them. -/
def moveEnds (m : T.Block × T.Block) : HashAndNumber × HashAndNumber :=
  (m.1.hashAndNumber, m.2.hashAndNumber)

/-- A step of the tracker changes the best block exactly by its move. So counting the
changes of the listener's best block is counting moves. -/
theorem bestChange_eq {S : T.Block → Prop} {l l' : Listener} {s s' : Tracker T.Block}
    {move : Option (T.Block × T.Block)} (htracks : l.Tracks S s) (htracks' : l'.Tracks S s')
    (heffect : Tracker.Effect T.tree s.best move s'.best) :
    bestChange l l' = move.toList.map moveEnds := by
  unfold bestChange
  rw [htracks.currentBestBlock, htracks'.currentBestBlock]
  -- The effect is indexed by the two best blocks, so they have to be variables.
  generalize s.best = a at heffect
  generalize s'.best = b at heffect
  cases heffect with
  | same a => cases a <;> simp
  | start b => rfl
  | move a b h =>
      have hne : a ≠ b := (ParentTree.ne_of_not_isAncestor h).symm
      simp [hne, moveEnds]
  | drop a => cases a <;> rfl

/-- The run lemma, from any state that tracks: the messages sent along the run are the
broadcasts of the moves that changed the current best block. -/
theorem run_moves (hlaw : env.Lawful T) {S : T.Block → Prop} (replies : List Reply) :
    ∀ {l l' : Listener} {s : Tracker T.Block}, l.Tracks S s →
      AllSteps (Listener.step env) (FromStore S) l replies →
      run (Listener.step env) l replies = some l' →
      ∃ (moves : List (T.Block × T.Block)) (s' : Tracker T.Block), l'.Tracks S s' ∧
        l'.sent = l.sent ++ moves.map (fun m => T.broadcast m.1 m.2) ∧
        bestChanges env l replies = moves.map moveEnds ∧
        ∀ m ∈ moves, ¬ T.tree.IsAncestor m.2 m.1 := by
  induction replies with
  | nil =>
      intro l l' s htracks _ hrun
      cases hrun
      exact ⟨[], s, htracks, by simp, rfl, by simp⟩
  | cons reply replies ih =>
      intro l l' s htracks hstore hrun
      obtain ⟨l₁, hstep, hrest⟩ := run_cons_eq_some.mp hrun
      obtain ⟨hreply, hstore'⟩ := hstore
      -- The first step by the refinement, and the rest by the induction hypothesis.
      obtain ⟨act, hmeans⟩ := hreply l₁ hstep
      obtain ⟨move, s₁, htstep, htracks₁, hsent₁⟩ := step_tracks hlaw htracks hmeans hstep
      obtain ⟨moves, s', htracks', hsent', hchanges, hmoves⟩ :=
        ih htracks₁ (hstore' l₁ hstep) hrest
      have heffect := htstep.effect
      refine ⟨move.toList ++ moves, s', htracks', ?_, ?_, ?_⟩
      · rw [hsent', hsent₁, List.map_append, List.append_assoc]
        rfl
      · simp only [bestChanges, hstep]
        rw [bestChange_eq htracks htracks₁ heffect, hchanges, List.map_append]
      · intro m hm
        rcases List.mem_append.mp hm with hm | hm
        · -- The step's own move: the new best block is not an ancestor of the old one.
          generalize s.best = a at heffect
          generalize s₁.best = b at heffect
          cases heffect with
          | same => simp at hm
          | start => simp at hm
          | move a b h =>
              simp only [Option.toList_some, List.mem_singleton] at hm
              rw [hm]
              exact h
          | drop => simp at hm
        · exact hmoves m hm

/-- At the start of the run the listener tracks its starting block. -/
theorem ListenRun.tracks_start {start : T.Block} {l₀ l : Listener} {replies : List Reply}
    (h : ListenRun T start l₀ replies l) : l₀.Tracks (AnyBlock T) (.following start) := by
  refine ⟨h.cache, ?_⟩
  rw [h.phase]
  exact .listenNext start trivial

/-- The messages of a run are the broadcasts of its changes of the current best block. -/
theorem listenRun_moves (hlaw : env.Lawful T) {start : T.Block} {l₀ l : Listener}
    {replies : List Reply} (h : ListenRun T start l₀ replies l) :
    ∃ (moves : List (T.Block × T.Block)) (s : Tracker T.Block), l.Tracks (AnyBlock T) s ∧
      l.sent = moves.map (fun m => T.broadcast m.1 m.2) ∧
      bestChanges env l₀ replies = moves.map moveEnds ∧
      ∀ m ∈ moves, ¬ T.tree.IsAncestor m.2 m.1 := by
  obtain ⟨moves, s, htracks, hsent, hchanges, hmoves⟩ :=
    run_moves hlaw replies h.tracks_start
      (h.store.imp fun _ _ hreply => fromStore_of_fromTree hreply) h.run
  rw [h.sent, List.nil_append] at hsent
  exact ⟨moves, s, htracks, hsent, hchanges, hmoves⟩

/-! ### The blocks of a message -/

/-- The message is a chain segment for a move from `a` to `b`: its blocks are linked by
parent hash with numbers rising by one, they end in `b`, and the first one is a child of
`a`, or of the lowest common ancestor when the message carries reorg data. -/
structure Anchored (T : BlockTree env) (a b : T.Block) (message : BlocksExt) : Prop where
  nonempty : message.blocks ≠ []
  linked : message.blocks.IsChain
    (fun x y => y.parentHash = x.hash ∧ y.number = x.number + 1)
  last : message.blocks.getLast? = some b.blockExt
  first : ∀ x, message.blocks.head? = some x →
    (message.maybeReorgData = none → x.parentHash = a.hash ∧ x.number = a.number + 1) ∧
    ∀ data, message.maybeReorgData = some data →
      x.parentHash = data.commonBlock.hash ∧ x.number = data.commonBlock.number + 1 ∧
      data.commonBlock = (T.tree.lca a b).hashAndNumber

/-- A child in the tree has its parent's hash in its header. -/
theorem blockExt_linked {x y : T.Block}
    (h : T.tree.parent y = x ∧ T.tree.height y = T.tree.height x + 1) :
    y.blockExt.parentHash = x.hash ∧ y.blockExt.number = x.number + 1 := by
  obtain ⟨hparent, hheight⟩ := h
  have hnumber : y.number = x.number + 1 := hheight
  refine ⟨?_, hnumber⟩
  show y.header.parentHash = x.hash
  rw [← BlockTree.Block.hash_parent (b := y) (by omega)]
  exact congrArg BlockTree.Block.hash hparent

/-- The reorg data of a broadcast is there exactly when the old best block is retracted. -/
theorem maybeReorgData_eq_none_iff {a b : T.Block} :
    (T.broadcast a b).maybeReorgData = none ↔ T.tree.IsAncestor a b := by
  by_cases h : T.tree.IsAncestor a b
  · simp [BlockTree.broadcast, h]
  · simp [BlockTree.broadcast, h]

/-- The reorg data of a broadcast, when it is there. Its `enacted` lacks the last block
of the branch, which the source pops before it moves the list into the data. -/
theorem maybeReorgData_eq_some {a b : T.Block} {data : ReorgData}
    (h : (T.broadcast a b).maybeReorgData = some data) :
    ¬ T.tree.IsAncestor a b ∧
    data = { enacted := ((T.tree.branch a b).map BlockTree.Block.hashAndNumber).dropLast
             retracted := (T.tree.branch b a).map BlockTree.Block.hashAndNumber
             commonBlock := (T.tree.lca a b).hashAndNumber } := by
  unfold BlockTree.broadcast at h
  split at h
  · cases h
  · rename_i hab
    exact ⟨hab, (Option.some.inj h).symm⟩

/-- The retracted blocks of a move from `a` to `b` go from the lowest common
ancestor up to `a`. -/
theorem length_retracted (a b : T.Block) :
    (T.tree.branch b a).length = a.number - (T.tree.lca a b).number := by
  rw [ParentTree.length_branch, ParentTree.lca_comm]
  rfl

/-- The broadcast of a move is anchored. The lowest common ancestor followed by
the branch is a chain of the tree, and mapping it to the details of the blocks
keeps the links. -/
theorem anchored_broadcast {a b : T.Block} (h : ¬ T.tree.IsAncestor b a) :
    Anchored T a b (T.broadcast a b) := by
  have hchain := ParentTree.isChain_branch (t := T.tree) a b
  have hne : T.tree.branch a b ≠ [] := fun hnil => h (ParentTree.branch_eq_nil_iff.mp hnil)
  refine ⟨?_, ?_, ?_, ?_⟩
  · simpa [BlockTree.broadcast] using hne
  · show ((T.tree.branch a b).map BlockTree.Block.blockExt).IsChain _
    rw [List.isChain_map]
    exact hchain.tail.imp fun x y hxy => blockExt_linked hxy
  · show ((T.tree.branch a b).map BlockTree.Block.blockExt).getLast? = _
    rw [List.getLast?_map, ParentTree.getLast?_branch h]
    rfl
  · intro x hx
    -- The head of the branch is a child of the lowest common ancestor.
    have hhead : x.parentHash = (T.tree.lca a b).hash ∧ x.number = (T.tree.lca a b).number + 1 := by
      cases hbranch : T.tree.branch a b with
      | nil => exact absurd hbranch hne
      | cons y ys =>
          rw [hbranch, List.isChain_cons_cons] at hchain
          have hxy : x = y.blockExt := by
            simp only [BlockTree.broadcast, hbranch, List.map_cons, List.head?_cons,
              Option.some.injEq] at hx
            exact hx.symm
          rw [hxy]
          exact blockExt_linked hchain.1
    refine ⟨fun hnone => ?_, fun data hdata => ?_⟩
    · -- Without reorg data `a` is an ancestor of `b`, and the lowest common one.
      have hlca := ParentTree.lca_eq_left_iff.mpr (maybeReorgData_eq_none_iff.mp hnone)
      rw [hlca] at hhead
      exact hhead
    · obtain ⟨-, rfl⟩ := maybeReorgData_eq_some hdata
      exact ⟨hhead.1, hhead.2, rfl⟩

/-- A message with blocks does not make the monitor panic. -/
theorem recvBlocks_running (config : StallAndReorgConfig) (w : Watcher) {message : BlocksExt}
    (hne : message.blocks ≠ []) (hw : w.status = .running) :
    (w.recvBlocks config message).status = .running := by
  unfold Watcher.recvBlocks
  cases hlast : message.blocks.getLast? with
  | none => exact absurd (List.getLast?_eq_none_iff.mp hlast) hne
  | some latest => exact hw

/-- The received block that a move of the tracker works on. -/
theorem Phase.Shows.receivedBlock {S : T.Block → Prop} {p : Phase} {s : Tracker T.Block}
    (h : p.Shows S s) {a b : T.Block} (hs : s = .verifying a b ∨ s = .routing a b) :
    p.receivedBlock = some b.item := by
  rcases hs with rfl | rfl <;> cases h <;> rfl

/-- Every message of a run is a broadcast of a move. -/
theorem ListenRun.exists_move (hlaw : env.Lawful T) {start : T.Block} {l₀ l : Listener}
    {replies : List Reply} (h : ListenRun T start l₀ replies l) {message : BlocksExt}
    (hmem : message ∈ l.sent) :
    ∃ a b : T.Block, ¬ T.tree.IsAncestor b a ∧ message = T.broadcast a b := by
  obtain ⟨moves, -, -, hsent, -, hmoves⟩ := listenRun_moves hlaw h
  rw [hsent] at hmem
  obtain ⟨⟨a, b⟩, hm, rfl⟩ := List.mem_map.mp hmem
  exact ⟨a, b, hmoves _ hm, rfl⟩

/-- A run and one more reply. -/
theorem ListenRun.snoc {start : T.Block} {l₀ l l' : Listener} {replies : List Reply}
    {reply : Reply} (h : ListenRun T start l₀ replies l) (hreply : fromTree T l reply = true)
    (hstep : l.step env reply = some l') : ListenRun T start l₀ (replies ++ [reply]) l' := by
  refine ⟨h.cache, h.phase, h.sent, allSteps_append_iff.mpr ⟨h.store, fun l₁ hrun => ?_⟩,
    run_append_eq_some.mpr ⟨l, h.run, by simpa using hstep⟩⟩
  rw [h.run, Option.some.injEq] at hrun
  rw [← hrun]
  exact ⟨hreply, fun _ _ => trivial⟩

/-- Every message that `listen_for_blocks` sends is a chain segment anchored at the
current best block. In every state of every run and for every reply, the listener either
sends nothing and keeps its best block while it goes on, or it sends one message: the
segment for the move from its best block to the block just received, which becomes the
best block. It never reports a hash missing from the cache, and no message it has sent
makes the stall and reorg monitor panic. -/
theorem listenForBlocks_sends_anchored (hlaw : env.Lawful T) {start : T.Block}
    {l₀ l l' : Listener} {replies : List Reply} {reply : Reply}
    (hrun : ListenRun T start l₀ replies l) (hreply : fromTree T l reply = true)
    (hstep : l.step env reply = some l') :
    ((l'.sent = l.sent ∧ ∀ a b, l.currentBestBlock = some a → l'.currentBestBlock = some b →
        b = a) ∨
      ∃ (a b : T.Block) (message : BlocksExt), l.currentBestBlock = some a.hashAndNumber ∧
        l.phase.receivedBlock = some b.item ∧ l'.currentBestBlock = some b.hashAndNumber ∧
        l'.sent = l.sent ++ [message] ∧ Anchored T a b message) ∧
    (∀ hash, l'.phase ≠ .returned (.missingBlockHashFromCache hash)) ∧
    ∀ message ∈ l'.sent, ∀ (config : StallAndReorgConfig) (w : Watcher),
      w.status = .running → (w.recvBlocks config message).status = .running := by
  obtain ⟨-, s, htracks, -, -, -⟩ := listenRun_moves hlaw hrun
  obtain ⟨act, hmeans⟩ := fromStore_of_fromTree hreply l' hstep
  obtain ⟨move, s', htstep, htracks', hsent⟩ := step_tracks hlaw htracks hmeans hstep
  refine ⟨?_, htracks'.not_missingFromCache, ?_⟩
  · rw [htracks.currentBestBlock, htracks'.currentBestBlock]
    -- The step sends exactly when the tracker moves.
    cases move with
    | none =>
        refine Or.inl ⟨by simpa [moveBroadcast] using hsent, fun a b ha hb => ?_⟩
        obtain ⟨a', ha', rfl⟩ := Option.map_eq_some_iff.mp ha
        obtain ⟨b', hb', rfl⟩ := Option.map_eq_some_iff.mp hb
        rw [htstep.of_no_move ha' hb']
    | some m =>
        obtain ⟨a, b⟩ := m
        obtain ⟨hs, hs', hba⟩ := htstep.of_move
        refine Or.inr ⟨a, b, T.broadcast a b, ?_, htracks.phase.receivedBlock hs, ?_, hsent,
          anchored_broadcast hba⟩
        · rcases hs with rfl | rfl <;> rfl
        · rw [hs']
          rfl
  · intro message hmem config w hw
    obtain ⟨a, b, hba, rfl⟩ := (hrun.snoc hreply hstep).exists_move hlaw hmem
    exact recvBlocks_running config w (anchored_broadcast hba).nonempty hw

/-! ### A run over a fork -/

/-- A listener at the block `2` of the fork, with an empty cache. -/
def forkListener : Listener :=
  { headerMetadata := .empty, sent := [], phase := .listenNext (forkBlock 2).hashAndNumber }

/-- A received block and the answer to its canonical check. -/
def received (block : forkTree.Block) (canonical : BlockHash) : List Reply :=
  [.next (some (.ok block.item)), .blockHash (.ok (some canonical))]

/-- The header of a block, asked for on the way of a route. -/
def fetched (block : forkTree.Block) : Reply := .header (.ok (some block.header))

/-- The listener at `2` after the replies. -/
def forkRun (replies : List Reply) : Listener :=
  (run (Listener.step walkExternals) forkListener replies).getD forkListener

/-- Replies over the fork make a run of the listener from block `2`, if each is one that
the store can give. -/
theorem forkListener_run {replies : List Reply}
    (hstore : AllSteps (Listener.step walkExternals)
      (fun l reply => fromTree forkTree l reply = true) forkListener replies)
    (hrun : (run (Listener.step walkExternals) forkListener replies).isSome = true) :
    ListenRun forkTree (forkBlock 2) forkListener replies (forkRun replies) := by
  refine ⟨fun hash header h => ?_, rfl, rfl, hstore, ?_⟩
  · simp [forkListener, HeadersMetadataCache.empty] at h
  · obtain ⟨l, hl⟩ := Option.isSome_iff_exists.mp hrun
    rw [forkRun, hl]
    rfl

/-- The block `3` is received at `2`, found canonical, and sent. The header of
`2`, which the empty cache misses, is fetched on the way, and the step that
takes it sends. -/
theorem listenForBlocks_sends_anchored_fork :
    ∃ (l' : Listener) (a b : forkTree.Block) (message : BlocksExt),
      (forkRun (received (forkBlock 3) 3)).step walkExternals (fetched (forkBlock 2)) = some l' ∧
      l'.sent = [message] ∧ Anchored forkTree a b message := by
  obtain ⟨hsends, -, -⟩ := @listenForBlocks_sends_anchored _ _ forkTree_lawful _ _ _ _ _
    (fetched (forkBlock 2)) (@forkListener_run (received (forkBlock 3) 3) (by decide) rfl)
    (by decide) rfl
  rcases hsends with ⟨hsame, -⟩ | ⟨a, b, message, -, -, -, hsent, hanchored⟩
  · exact absurd hsame (by decide)
  · exact ⟨_, a, b, message, rfl, hsent, hanchored⟩

/-! ### The enacted blocks of the reorg data -/

/-- The reorg data of a broadcast has every enacted block but the last. -/
theorem enacted_broadcast {a b : T.Block} {data : ReorgData}
    (h : (T.broadcast a b).maybeReorgData = some data) :
    data.enacted = ((T.broadcast a b).blocks.map BlockExt.hashAndNumber).dropLast := by
  obtain ⟨-, rfl⟩ := maybeReorgData_eq_some h
  simp only [BlockTree.broadcast, List.map_map]
  rfl

/-- The reorg data of a broadcast does not name the new best block. It is the last block
of the branch, and no block is twice in a branch. -/
theorem hashAndNumber_notMem_reorgData {a b : T.Block} (hba : ¬ T.tree.IsAncestor b a)
    {data : ReorgData} (h : (T.broadcast a b).maybeReorgData = some data) :
    b.hashAndNumber ∉ data.commonBlock :: data.enacted := by
  obtain ⟨-, rfl⟩ := maybeReorgData_eq_some h
  -- `b` is the last block of the branch, which has no repetitions.
  have hlast : b ∈ (T.tree.branch a b).getLast? := ParentTree.getLast?_branch hba
  have hnodup := ParentTree.nodup_branch (t := T.tree) a b
  rw [← List.dropLast_append_getLast? b hlast, List.nodup_append] at hnodup
  rw [List.mem_cons, not_or]
  refine ⟨fun hcommon => ?_, fun hmem => ?_⟩
  · -- The common block is an ancestor of `a`.
    rw [BlockTree.Block.hashAndNumber_inj] at hcommon
    exact hba (hcommon ▸ ParentTree.lca_isAncestor_left a b)
  · rw [← List.map_dropLast, List.mem_map_of_injective BlockTree.Block.hashAndNumber_injective]
      at hmem
    exact hnodup.2.2 b hmem b List.mem_cons_self rfl

/-- A nonempty list differs from what is left without its last element. -/
theorem dropLast_ne_self {α : Type} {xs : List α} (h : xs ≠ []) : xs.dropLast ≠ xs := by
  intro heq
  have hlen := congrArg List.length heq
  have hpos := List.length_pos_iff.mpr h
  rw [List.length_dropLast] at hlen
  omega

/-- The reorg alerts that a message adds carry its reorg data. The monitor adds
nothing of its own to the list of enacted blocks, so what is missing there is
missing in the alert. -/
theorem recvBlocks_reorg {config : StallAndReorgConfig} {w : Watcher} {message : BlocksExt}
    {reorg : ChainReorg} (hnew : Alert.reorg reorg ∈ (w.recvBlocks config message).alerts)
    (hold : Alert.reorg reorg ∉ w.alerts) :
    ∃ data, message.maybeReorgData = some data ∧ reorg.enacted = data.enacted := by
  unfold Watcher.recvBlocks at hnew
  cases hlast : message.blocks.getLast? with
  | none =>
      simp only [hlast] at hnew
      exact absurd hnew hold
  | some latest =>
      simp only [hlast, List.mem_append] at hnew
      -- The alerts of a message are a recovery and a reorg, behind the old ones.
      rcases hnew with (hnew | hnew) | hnew
      · exact absurd hnew hold
      · cases hfired : w.timeoutFired <;> simp [Watcher.recoveryAlerts, hfired] at hnew
      · cases hdata : message.maybeReorgData with
        | none => simp [Watcher.reorgAlerts, hdata] at hnew
        | some data =>
            simp only [Watcher.reorgAlerts, hdata, List.mem_ite_nil_right, List.mem_singleton,
              Alert.reorg.injEq] at hnew
            exact ⟨data, rfl, by rw [hnew.2]⟩

/-- No reorg data of any run lists the new best block: its enacted list is the blocks of
the message without the last one. So it is never the list of those blocks, never leads
from the common block to the new best block, and neither does the enacted list of a
reorg alert that the message brings about. -/
theorem listenForBlocks_enacted_incomplete (hlaw : env.Lawful T) {start : T.Block}
    {l₀ l : Listener} {replies : List Reply} (hrun : ListenRun T start l₀ replies l)
    {message : BlocksExt} (hmem : message ∈ l.sent) {data : ReorgData}
    (hdata : message.maybeReorgData = some data) :
    data.enacted = (message.blocks.map BlockExt.hashAndNumber).dropLast ∧
    data.enacted ≠ message.blocks.map BlockExt.hashAndNumber ∧
    (data.commonBlock :: data.enacted).getLast?
      ≠ (message.blocks.map BlockExt.hashAndNumber).getLast? ∧
    ∀ (config : StallAndReorgConfig) (w : Watcher) (reorg : ChainReorg),
      Alert.reorg reorg ∈ (w.recvBlocks config message).alerts → Alert.reorg reorg ∉ w.alerts →
      reorg.enacted ≠ message.blocks.map BlockExt.hashAndNumber := by
  obtain ⟨a, b, hba, rfl⟩ := hrun.exists_move hlaw hmem
  have henacted := enacted_broadcast hdata
  have hne : (T.broadcast a b).blocks.map BlockExt.hashAndNumber ≠ [] := by
    simpa using (anchored_broadcast hba).nonempty
  have hincomplete : data.enacted ≠ (T.broadcast a b).blocks.map BlockExt.hashAndNumber := by
    rw [henacted]
    exact dropLast_ne_self hne
  refine ⟨henacted, hincomplete, ?_, ?_⟩
  · intro hlast
    have hblast : ((T.broadcast a b).blocks.map BlockExt.hashAndNumber).getLast?
        = some b.hashAndNumber := by
      rw [List.getLast?_map, (anchored_broadcast hba).last]
      rfl
    rw [hblast] at hlast
    exact hashAndNumber_notMem_reorgData hba hdata (List.mem_of_getLast? hlast)
  · intro config w reorg hnew hold
    obtain ⟨data', hdata', hreorg⟩ := recvBlocks_reorg hnew hold
    rw [hdata, Option.some.injEq] at hdata'
    rw [hreorg, ← hdata']
    exact hincomplete

/-- The listener goes from `2` to `3`, and from there over to the fork at `4`. -/
def forkReplies : List Reply :=
  received (forkBlock 3) 3 ++ [fetched (forkBlock 2)] ++ received (forkBlock 4) 4

/-- The reorg from `3` to `4` is sent with the block `4` and an empty enacted list. -/
theorem listenForBlocks_enacted_fork :
    ∃ (message : BlocksExt) (data : ReorgData),
      ListenRun forkTree (forkBlock 2) forkListener forkReplies (forkRun forkReplies) ∧
      message ∈ (forkRun forkReplies).sent ∧ message.maybeReorgData = some data ∧
      data.enacted ≠ message.blocks.map BlockExt.hashAndNumber := by
  refine ⟨forkTree.broadcast (forkBlock 3) (forkBlock 4), _,
    forkListener_run (by decide) rfl, ?_, rfl, ?_⟩
  · decide
  · decide

/-- The move from `3` to `4` enacts block `4`, and the reorg data does not name it. -/
theorem listenForBlocks_enacted_incomplete_fork :
    ∃ data : ReorgData,
      (forkTree.broadcast (forkBlock 3) (forkBlock 4)).maybeReorgData = some data ∧
      data.enacted = [] ∧ data.enacted ≠ [(forkBlock 4).hashAndNumber] := by
  obtain ⟨henacted, hne, -⟩ := @listenForBlocks_enacted_incomplete _ _ forkTree_lawful _ _ _ _
    (@forkListener_run forkReplies (by decide) rfl)
    (forkTree.broadcast (forkBlock 3) (forkBlock 4)) (by decide) _ rfl
  exact ⟨_, rfl, henacted, hne⟩

/-! ### How often a block is sent -/

/-- The move takes the block onto the chain of the best block. -/
def enters (x : T.Block) (m : T.Block × T.Block) : Bool :=
  T.tree.IsAncestor x m.2 ∧ ¬ T.tree.IsAncestor x m.1

/-- The hashes of the blocks of all messages, in the order they are checked for alerts. -/
def sentHashes (l : Listener) : List BlockHash :=
  (l.sent.flatMap BlocksExt.blocks).map BlockExt.hash

/-- Blocks are told apart by their hashes. -/
theorem hash_injective : Function.Injective (BlockTree.Block.hash : T.Block → BlockHash) :=
  fun _ _ h => BlockTree.Block.eq_of_hash_eq h

/-- The hashes of the broadcasts of some moves. -/
theorem flatMap_broadcast_hash (moves : List (T.Block × T.Block)) :
    ((moves.map (fun m => T.broadcast m.1 m.2)).flatMap BlocksExt.blocks).map BlockExt.hash
      = (moves.flatMap (fun m => T.tree.branch m.1 m.2)).map BlockTree.Block.hash := by
  induction moves with
  | nil => rfl
  | cons m moves ih =>
      simp only [List.map_cons, List.flatMap_cons, List.map_append, ih]
      simp only [BlockTree.broadcast, List.map_map]
      rfl

/-- A block is in the branches of some moves once for each move that it enters by, as no
branch has a block twice. -/
theorem count_flatMap_branch (x : T.Block) (moves : List (T.Block × T.Block)) :
    (moves.flatMap (fun m => T.tree.branch m.1 m.2)).count x = moves.countP (enters x) := by
  induction moves with
  | nil => rfl
  | cons m moves ih =>
      -- A branch has no repetitions, so its share of the count is `0` or `1`.
      rw [List.flatMap_cons, List.count_append, ih, List.countP_cons,
        (ParentTree.nodup_branch m.1 m.2).count, Nat.add_comm]
      simp only [ParentTree.mem_branch, enters, decide_eq_true_eq]

/-- A block is sent exactly once for each change of the current best block that takes it
onto the chain of the best block. So no block is sent twice in a run exactly when no
block is taken onto that chain twice: away from a fork and back to it, the run sends the
fork's blocks again. -/
theorem listenForBlocks_sends_once_per_entry (hlaw : env.Lawful T) {start : T.Block}
    {l₀ l : Listener} {replies : List Reply} (hrun : ListenRun T start l₀ replies l) :
    ∃ moves : List (T.Block × T.Block), bestChanges env l₀ replies = moves.map moveEnds ∧
      (∀ x : T.Block, (sentHashes l).count x.hash = moves.countP (enters x)) ∧
      (∀ hash ∈ sentHashes l, ∃ x : T.Block, x.hash = hash) ∧
      ((sentHashes l).Nodup ↔ ∀ x : T.Block, moves.countP (enters x) ≤ 1) := by
  obtain ⟨moves, -, -, hsent, hchanges, -⟩ := listenRun_moves hlaw hrun
  have hhashes : sentHashes l
      = (moves.flatMap (fun m => T.tree.branch m.1 m.2)).map BlockTree.Block.hash := by
    unfold sentHashes
    rw [hsent, flatMap_broadcast_hash]
  have hcount : ∀ x : T.Block, (sentHashes l).count x.hash = moves.countP (enters x) := by
    intro x
    rw [hhashes, List.count_map_of_injective _ _ hash_injective, count_flatMap_branch]
  have hblock : ∀ hash ∈ sentHashes l, ∃ x : T.Block, x.hash = hash := by
    intro hash hmem
    rw [hhashes] at hmem
    obtain ⟨x, -, hx⟩ := List.mem_map.mp hmem
    exact ⟨x, hx⟩
  refine ⟨moves, hchanges, hcount, hblock, ?_⟩
  rw [List.nodup_iff_count_le_one]
  constructor
  · intro hnodup x
    rw [← hcount x]
    exact hnodup x.hash
  · intro honce hash
    -- Only hashes of blocks of the tree are sent.
    by_cases hmem : hash ∈ sentHashes l
    · obtain ⟨x, rfl⟩ := hblock hash hmem
      rw [hcount x]
      exact honce x
    · rw [List.count_eq_zero_of_not_mem hmem]
      exact Nat.zero_le 1

/-- From `2` to `3`, over to `4`, and back to the first fork at `5`. -/
def backReplies : List Reply := forkReplies ++ received (forkBlock 5) 5

/-- The block `3` is sent on the way to `3`, and again on the way back to `5`. -/
theorem sentHashes_back :
    ListenRun forkTree (forkBlock 2) forkListener backReplies (forkRun backReplies) ∧
    sentHashes (forkRun backReplies) = [3, 4, 3, 5] ∧
    ¬ (sentHashes (forkRun backReplies)).Nodup :=
  ⟨forkListener_run (by decide) rfl, by decide, by decide⟩

/-- The best block leaves the fork of `3` and comes back to it. So `3` is entered twice,
and it is sent twice. -/
theorem listenForBlocks_sends_once_per_entry_back :
    ∃ moves : List (forkTree.Block × forkTree.Block),
      bestChanges walkExternals forkListener backReplies = moves.map moveEnds ∧
      moves.countP (enters (forkBlock 3)) = 2 := by
  obtain ⟨moves, hchanges, hcount, -⟩ := listenForBlocks_sends_once_per_entry forkTree_lawful
    (@forkListener_run backReplies (by decide) rfl)
  refine ⟨moves, hchanges, ?_⟩
  rw [← hcount]
  decide

end ChainAlerter
