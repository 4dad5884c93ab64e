import ChainAlerter.Model.World
import ChainAlerter.Proofs.Tracks

/-!
# `ChainAlerter.Proofs.World`: the world refines a tracker and its source

In a world the listener knows only blocks that the node has imported
(`World.Tracks`), and the node's replies are what the source of the tracker
answers: the verdict of a canonical check compares the block with the chain of
the best block at that moment. `World.step_tracks` puts the two together: a step
of the world is a step of the source, or a step of the tracker on what the event
means (`World.ActFor`).
-/

set_option autoImplicit false

namespace ChainAlerter

open ChainAlerter.Library
open ChainAlerter.Abstract

variable {env : Externals} {T : BlockTree env}

/-- The listener is at the state `s` of the tracker, and knows only imported blocks. -/
def World.Tracks (w : World T) (s : Tracker T.Block) : Prop :=
  w.listener.Tracks (fun b => b ∈ w.node.imported) s

/-- What an event that the listener takes part in is for the tracker. -/
inductive World.ActFor (w : World T) (s : Tracker T.Block) :
    WorldEvent T → Act T.Block → Prop where
  | deliver (b : T.Block) (hb : b ∈ w.node.imported) : World.ActFor w s (.deliver b) (.receive b)
  | answer (act : Act T.Block) (h : w.node.Answers s act) : World.ActFor w s .answer act
  | answerSlot (slot : Nat) (h : s.candidate = none) : World.ActFor w s (.answerSlot slot) .internal
  | lose (reply : Reply) (act : Act T.Block) (h : act = .lost ∨ act = .internal) :
      World.ActFor w s (.lose reply) act

/-! ### The replies of the node -/

/-- The node knows the headers of its imported blocks. -/
theorem chainGetHeader_of_mem {node : Node T} {b : T.Block} (hb : b ∈ node.imported) :
    node.chainGetHeader b.hash = some b.header := by
  unfold Node.chainGetHeader
  -- A block of the tree is determined by its hash.
  cases hfind : node.imported.find? (fun b' => b'.hash = b.hash) with
  | none =>
      rw [List.find?_eq_none] at hfind
      exact absurd (decide_eq_true rfl) (hfind b hb)
  | some b' =>
      have hhash : b'.hash = b.hash := by simpa using List.find?_some hfind
      rw [BlockTree.Block.eq_of_hash_eq hhash]
      rfl

/-- The node knows no other headers. -/
theorem exists_of_chainGetHeader {node : Node T} {hash : BlockHash} {header : Header}
    (h : node.chainGetHeader hash = some header) :
    ∃ b ∈ node.imported, b.hash = hash ∧ b.header = header := by
  obtain ⟨b, hfind, hheader⟩ := Option.map_eq_some_iff.mp h
  exact ⟨b, List.mem_of_find?_eq_some hfind, by simpa using List.find?_some hfind, hheader⟩

/-- The node's answer to a canonical check. On or below its tip it is a hash, which is
the block's own exactly when the block is on the best chain. Above it there is none. -/
theorem chainGetBlockHash_cases (node : Node T) (b : T.Block) :
    (b.number ≤ node.best.number ∧ ∃ hash, node.chainGetBlockHash b.item.number = some hash ∧
      (b.item.hash = hash ↔ T.tree.IsAncestor b node.best)) ∨
    (node.best.number < b.number ∧ node.chainGetBlockHash b.item.number = none) := by
  show (_ ∧ ∃ hash, T.blockHashAt node.best b.number = some hash ∧ _) ∨
    (_ ∧ T.blockHashAt node.best b.number = none)
  rw [← BlockTree.blockHashAt_eq_hash_iff, BlockTree.blockHashAt]
  by_cases htip : b.number ≤ node.best.number
  · rw [if_pos htip]
    refine Or.inl ⟨htip, _, rfl, ?_⟩
    rw [Option.some.injEq]
    exact eq_comm
  · rw [if_neg htip]
    exact Or.inr ⟨Nat.lt_of_not_le htip, rfl⟩

/-- What the node's reply means is what the source of the tracker answers. This connects
the requests of the listener with the abstract source, phase by phase. -/
theorem World.reply_means {w : World T} {s : Tracker T.Block} (htracks : w.Tracks s)
    {reply : Reply} (hreply : w.node.reply w.listener.phase = some reply) :
    ∃ act, Means (fun b => b ∈ w.node.imported) w.listener.phase reply act ∧
      w.node.Answers s act := by
  obtain ⟨node, cache, sent, phase⟩ := w
  obtain ⟨-, hphase⟩ := htracks
  -- One case for each phase. The last four have no request of this kind.
  cases hphase with
  | subscribe =>
      cases hreply
      exact ⟨_, .subscribed _, .internal rfl⟩
  | loadCanonical b hb =>
      cases hreply
      rcases chainGetBlockHash_cases node b with ⟨htip, hash, hanswer, hcanonical⟩ | ⟨htip, hanswer⟩
      · rw [hanswer]
        refine ⟨_, .loadVerdict _ _, .verdict b rfl htip _ ?_⟩
        rw [decide_eq_true_iff]
        exact hcanonical
      · rw [hanswer]
        exact ⟨_, .noHash _, .aboveTip b rfl htip⟩
  | loadHead b hb =>
      cases hreply
      rw [chainGetHeader_of_mem hb]
      exact ⟨_, .loadHeader _ b hb rfl, .internal rfl⟩
  | listenCanonical a b ha hb =>
      cases hreply
      rcases chainGetBlockHash_cases node b with ⟨htip, hash, hanswer, hcanonical⟩ | ⟨htip, hanswer⟩
      · rw [hanswer]
        refine ⟨_, .listenVerdict _ _ _, .verdict b rfl htip _ ?_⟩
        rw [decide_eq_true_iff]
        exact hcanonical
      · rw [hanswer]
        exact ⟨_, .noHash _, .aboveTip b rfl htip⟩
  | listenRoute a b x ha hb hx =>
      cases hreply
      -- A block of the route is an ancestor of one of its ends.
      have hmem : x ∈ node.imported := by
        rcases hx.1 with hxa | hxb
        · exact node.mem_of_isAncestor hxa ha
        · exact node.mem_of_isAncestor hxb hb
      rw [chainGetHeader_of_mem hmem]
      exact ⟨_, .routeHeader _ _ _ x hmem rfl, .internal rfl⟩
  | loadNext => cases hreply
  | loadRange => cases hreply
  | listenNext => cases hreply
  | returned => cases hreply

/-- A reply to a request of the header load means internal work. The tracker does not
see the single requests. -/
theorem Node.slotReply_means {node : Node T} {p : Phase} {slot : Nat} {request : LoadSlot}
    {reply : Reply} (hreply : node.slotReply slot request = some reply) :
    Means (fun b => b ∈ node.imported) p reply .internal := by
  cases request with
  | blockHash number =>
      cases hreply
      exact .slotHash _ _ _
  | header hash =>
      cases hreply
      cases hheader : node.chainGetHeader hash with
      | none => exact .noSlotHeader _ _
      | some header =>
          obtain ⟨b, hb, -, rfl⟩ := exists_of_chainGetHeader hheader
          exact .slotHeader _ _ b hb
  | done result => cases hreply

/-- A lost connection. -/
theorem means_of_isLost {S : T.Block → Prop} {p : Phase} {reply : Reply}
    (h : reply.isLost = true) : ∃ act, Means S p reply act ∧ (act = .lost ∨ act = .internal) := by
  match reply, h with
  | .subscribed (.error err), _ => exact ⟨_, .notSubscribed _ err, Or.inl rfl⟩
  | .next (some (.error err)), _ => exact ⟨_, .blockLost _ err, Or.inl rfl⟩
  | .blockHash (.error err), _ => exact ⟨_, .hashLost _ err, Or.inl rfl⟩
  | .header (.error err), _ => exact ⟨_, .headerLost _ err, Or.inl rfl⟩
  | .slotBlockHash slot (.error err), _ => exact ⟨_, .slotHash _ slot _, Or.inr rfl⟩
  | .slotHeader slot (.error err), _ => exact ⟨_, .slotHeaderLost _ slot err, Or.inr rfl⟩

/-! ### The steps of the world -/

/-- What an event of the world can do. The node grows or changes its best block and
leaves the listener alone, or the listener takes a step of the tracker on what the event
means and leaves the node alone. -/
inductive World.Moves (w w' : World T) (s : Tracker T.Block) (e : WorldEvent T) : Prop where
  | ofNode (hlistener : w'.listener = w.listener) (htracks : w'.Tracks s)
      (hnode : (∃ b newBest, e = .importBlock b newBest ∧ w.node.add b newBest = some w'.node) ∨
        ∃ b, e = .setBest b ∧ w.node.setBest b = some w'.node)
  | ofListener (hnode : w'.node = w.node) (act : Act T.Block)
      (move : Option (T.Block × T.Block)) (s' : Tracker T.Block) (hact : w.ActFor s e act)
      (hstep : Tracker.Step T.tree s act move s') (htracks : w'.Tracks s')
      (hsent : w'.listener.sent = w.listener.sent ++ moveBroadcast T move)

/-- A reply with a meaning takes the listener along a step of the tracker. -/
theorem World.hear_moves (hlaw : env.Lawful T) {w w' : World T} {s : Tracker T.Block}
    {e : WorldEvent T} {reply : Reply} {act : Act T.Block} (htracks : w.Tracks s)
    (hmeans : Means (fun b => b ∈ w.node.imported) w.listener.phase reply act)
    (hact : w.ActFor s e act) (hstep : w.hear reply = some w') : w.Moves w' s e := by
  obtain ⟨l', hl', rfl⟩ := Option.map_eq_some_iff.mp hstep
  obtain ⟨move, s', htstep, htracks', hsent⟩ := ChainAlerter.step_tracks hlaw htracks hmeans hl'
  exact .ofListener rfl act move s' hact htstep htracks' hsent

/-- Every step of the world is one of the node, which the listener does not see, or one
that the tracker follows. All results about runs of the world go by these two cases. -/
theorem World.step_moves (hlaw : env.Lawful T) {w w' : World T} {s : Tracker T.Block}
    {e : WorldEvent T} (htracks : w.Tracks s) (hstep : w.step e = some w') : w.Moves w' s e := by
  cases e with
  | importBlock b newBest =>
      obtain ⟨node, hnode, rfl⟩ := Option.map_eq_some_iff.mp hstep
      obtain ⟨-, himported, -⟩ := Source.add_eq_some hnode
      -- The listener is where it was, and the node has more blocks.
      refine .ofNode rfl (htracks.mono fun x hx => ?_) (Or.inl ⟨b, newBest, rfl, hnode⟩)
      show x ∈ node.imported
      rw [himported]
      exact List.mem_cons_of_mem _ hx
  | setBest b =>
      obtain ⟨node, hnode, rfl⟩ := Option.map_eq_some_iff.mp hstep
      obtain ⟨himported, -⟩ := Source.setBest_eq_some hnode
      refine .ofNode rfl (htracks.mono fun x hx => ?_) (Or.inr ⟨b, rfl, hnode⟩)
      show x ∈ node.imported
      rw [himported]
      exact hx
  | deliver b =>
      simp only [World.step] at hstep
      split at hstep
      · rename_i hb
        exact World.hear_moves hlaw htracks (.block _ b hb) (.deliver b hb) hstep
      · cases hstep
  | answer =>
      obtain ⟨reply, hreply, hhear⟩ := Option.bind_eq_some_iff.mp hstep
      obtain ⟨act, hmeans, hact⟩ := World.reply_means htracks hreply
      exact World.hear_moves hlaw htracks hmeans (.answer act hact) hhear
  | answerSlot slot =>
      simp only [World.step] at hstep
      split at hstep
      · rename_i latest slots hphase
        obtain ⟨reply, hreply, hhear⟩ := Option.bind_eq_some_iff.mp hstep
        obtain ⟨request, -, hslot⟩ := Option.bind_eq_some_iff.mp hreply
        -- The tracker is preparing its first best node, so there is no candidate.
        have hcandidate : s.candidate = none := by
          have hshows := htracks.phase
          rw [hphase] at hshows
          cases hshows
          rfl
        exact World.hear_moves hlaw htracks (Node.slotReply_means hslot)
          (.answerSlot slot hcandidate) hhear
      · cases hstep
  | lose reply =>
      simp only [World.step] at hstep
      split at hstep
      · rename_i hlost
        obtain ⟨act, hmeans, hact⟩ := means_of_isLost hlost
        exact World.hear_moves hlaw htracks hmeans (.lose reply act hact) hstep
      · cases hstep

/-- The event is a step of the node. -/
def WorldEvent.ofNode : WorldEvent T → Bool
  | .importBlock _ _ => true
  | .setBest _ => true
  | _ => false

/-- The steps that are not the node's are the listener's. They leave the node as it is. -/
theorem World.Moves.of_listener {w w' : World T} {s : Tracker T.Block} {e : WorldEvent T}
    (h : w.Moves w' s e) (he : e.ofNode = false) :
    w'.node = w.node ∧ ∃ (act : Act T.Block) (move : Option (T.Block × T.Block))
      (s' : Tracker T.Block), w.ActFor s e act ∧ Tracker.Step T.tree s act move s' ∧
        w'.Tracks s' ∧ w'.listener.sent = w.listener.sent ++ moveBroadcast T move := by
  cases h with
  | ofNode _ _ hnode =>
      rcases hnode with ⟨b, newBest, rfl, -⟩ | ⟨b, rfl, -⟩
      · cases he
      · cases he
  | ofListener hnode act move s' hact hstep htracks hsent =>
      exact ⟨hnode, act, move, s', hact, hstep, htracks, hsent⟩

/-! ### The steps of a subscription -/

/-- What an event of a subscription can do: the node imports a block and queues it, the
listener takes the next block from the queue, or the node answers the listener. -/
inductive Subscribed.Moves (w w' : Subscribed T) (s : Tracker T.Block) (e : SubscribedEvent T) :
    Prop where
  | imports (b : T.Block) (newBest : Bool) (he : e = .importBlock b newBest)
      (hadd : w.world.node.add b newBest = some w'.world.node)
      (hlistener : w'.world.listener = w.world.listener) (htracks : w'.world.Tracks s)
      (hqueue : w'.queue = w.queue ++ [b])
  | receives (b : T.Block) (hqueue : w.queue = b :: w'.queue)
      (hnode : w'.world.node = w.world.node) (move : Option (T.Block × T.Block))
      (s' : Tracker T.Block) (hstep : Tracker.Step T.tree s (.receive b) move s')
      (htracks : w'.world.Tracks s')
      (hsent : w'.world.listener.sent = w.world.listener.sent ++ moveBroadcast T move)
  | answers (he : e = .answer ∨ s.candidate = none) (hqueue : w'.queue = w.queue)
      (hnode : w'.world.node = w.world.node) (act : Act T.Block)
      (move : Option (T.Block × T.Block)) (s' : Tracker T.Block)
      (hact : w.world.node.Answers s act) (hstep : Tracker.Step T.tree s act move s')
      (htracks : w'.world.Tracks s')
      (hsent : w'.world.listener.sent = w.world.listener.sent ++ moveBroadcast T move)

/-- Every step of a subscription is an import, which queues the block, or one that
the tracker follows. The queue is what the abstract source has between its nodes
and the tracker. -/
theorem Subscribed.step_moves (hlaw : env.Lawful T) {w w' : Subscribed T} {s : Tracker T.Block}
    {e : SubscribedEvent T} (htracks : w.world.Tracks s) (hstep : w.step e = some w') :
    w.Moves w' s e := by
  cases e with
  | importBlock b newBest =>
      obtain ⟨world, hworld, rfl⟩ := Option.map_eq_some_iff.mp hstep
      cases World.step_moves hlaw htracks hworld with
      | ofNode hlistener htracks' hnode =>
          rcases hnode with ⟨b', newBest', heq, hadd⟩ | ⟨b', heq, -⟩
          · cases heq
            exact .imports b newBest rfl hadd hlistener htracks' rfl
          · cases heq
      | ofListener _ _ _ _ hact => cases hact
  | next =>
      obtain ⟨world, queue⟩ := w
      cases queue with
      | nil => cases hstep
      | cons b queue =>
          obtain ⟨world', hworld, rfl⟩ := Option.map_eq_some_iff.mp hstep
          obtain ⟨hnode, act, move, s', hact, htstep, htracks', hsent⟩ :=
            (World.step_moves hlaw htracks hworld).of_listener rfl
          cases hact
          exact .receives b rfl hnode move s' htstep htracks' hsent
  | answer =>
      obtain ⟨world, hworld, rfl⟩ := Option.map_eq_some_iff.mp hstep
      obtain ⟨hnode, act, move, s', hact, htstep, htracks', hsent⟩ :=
        (World.step_moves hlaw htracks hworld).of_listener rfl
      cases hact with
      | answer _ hanswers =>
          exact .answers (Or.inl rfl) rfl hnode act move s' hanswers htstep htracks' hsent
  | answerSlot slot =>
      obtain ⟨world, hworld, rfl⟩ := Option.map_eq_some_iff.mp hstep
      obtain ⟨hnode, act, move, s', hact, htstep, htracks', hsent⟩ :=
        (World.step_moves hlaw htracks hworld).of_listener rfl
      cases hact with
      | answerSlot _ hcandidate =>
          exact .answers (Or.inr hcandidate) rfl hnode _ move s' (.internal hcandidate) htstep
            htracks' hsent

/-! ### A world on a fork -/

/-- A node with the blocks `1` and `2` of the fork. -/
def forkNode : Node forkTree where
  imported := [forkBlock 2, forkBlock 1]
  best := forkBlock 2
  best_mem := by decide
  closed := by decide

/-- The listener subscribes and starts at `2`: the notification, the canonical check,
the header of `2`, and the two requests of the header load. -/
def forkStart : List (WorldEvent forkTree) :=
  [.answer, .deliver (forkBlock 2), .answer, .answer, .answerSlot 0, .answerSlot 1,
   .answerSlot 1, .answerSlot 0]

end ChainAlerter
