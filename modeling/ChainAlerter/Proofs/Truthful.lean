import ChainAlerter.Proofs.Agreement
import ChainAlerter.Proofs.Broadcast

/-!
# `ChainAlerter.Proofs.Truthful`: the messages describe the node's chain

The node's best block moves while the listener works, so a message is built from
two snapshots of the node's chain: the one at the canonical check of the
received block, and the one at the earlier check by which the current best block
was adopted. `Witnessed` is a world that remembers both, each with the block that
was checked. The listener does not read them.

`WitnessedBy` says what they witness in each state of the tracker.
`broadcasts_truthful` is the result for every message: its blocks are on the
first chain, and its retracted blocks are on the second and not on the first.
-/

set_option autoImplicit false

namespace ChainAlerter

open ChainAlerter.Library
open ChainAlerter.Abstract

variable {env : Externals} {T : BlockTree env}

/-- The block whose canonical check the task waits for. -/
def Phase.checkedBlock : Phase → Option SubxtBlock
  | .loadCanonical block => some block
  | .listenCanonical _ block => some block
  | _ => none

/-- A canonical check: the block, and the node's best block when it was answered. -/
structure Check (T : BlockTree env) where
  block : SubxtBlock
  best : T.Block

/-- A world with the latest canonical check, and the check by which the current best
block was adopted. -/
structure Witnessed (T : BlockTree env) where
  world : World T
  checkedAt : Option (Check T)
  adoptedAt : Option (Check T)

namespace Witnessed

/-- The latest canonical check after an event: the answer to one is the latest. -/
def nextCheckedAt (w : Witnessed T) : WorldEvent T → Option (Check T)
  | .answer =>
      match w.world.listener.phase.checkedBlock with
      | some block => some { block := block, best := w.world.node.best }
      | none => w.checkedAt
  | _ => w.checkedAt

/-- A step of the world. A new current best block was adopted by the latest check. -/
def step (w : Witnessed T) (e : WorldEvent T) : Option (Witnessed T) :=
  (w.world.step e).map (fun world =>
    { world := world
      checkedAt := w.nextCheckedAt e
      adoptedAt :=
        if world.listener.currentBestBlock = w.world.listener.currentBestBlock then w.adoptedAt
        else w.nextCheckedAt e })

/-- No canonical check has been made at the start. -/
def init (node : Node T) : Witnessed T :=
  { world := .init node, checkedAt := none, adoptedAt := none }

end Witnessed

/-- The check was one of the block, and found it on the node's chain. -/
def SeenAt (check : Option (Check T)) (b : T.Block) : Prop :=
  ∃ best, check = some ⟨b.item, best⟩ ∧ T.tree.IsAncestor b best

/-- What the two checks witness: the first best block, and the target of a route,
were found on the chain by the latest check, and the current best block by the check
that adopted it. -/
def WitnessedBy (checkedAt adoptedAt : Option (Check T)) : Tracker T.Block → Prop
  | .starting b => SeenAt checkedAt b
  | .following a => SeenAt adoptedAt a
  | .verifying a _ => SeenAt adoptedAt a
  | .routing a b => SeenAt adoptedAt a ∧ SeenAt checkedAt b
  | _ => True

/-- The task waits for the canonical check of the tracker's candidate. -/
theorem Phase.Shows.checkedBlock {S : T.Block → Prop} {p : Phase} {s : Tracker T.Block}
    (h : p.Shows S s) : p.checkedBlock = s.candidate.map BlockTree.Block.item := by
  cases h <;> rfl

/-- The latest check, where the tracker has a candidate and the node answers it. -/
theorem nextCheckedAt_answer {w : Witnessed T} {s : Tracker T.Block}
    (htracks : w.world.Tracks s) {b : T.Block} (hs : s.candidate = some b) :
    w.nextCheckedAt .answer = some ⟨b.item, w.world.node.best⟩ := by
  simp [Witnessed.nextCheckedAt, htracks.phase.checkedBlock, hs]

/-- Without a candidate nothing is checked. -/
theorem nextCheckedAt_of_no_candidate {w : Witnessed T} {s : Tracker T.Block}
    (htracks : w.world.Tracks s) (hs : s.candidate = none) (e : WorldEvent T) :
    w.nextCheckedAt e = w.checkedAt := by
  cases e with
  | answer => simp [Witnessed.nextCheckedAt, htracks.phase.checkedBlock, hs]
  | _ => rfl

/-- The work on an accepted block that was on the chain at the latest check: a move is
witnessed by both snapshots, and so is the state after it. -/
theorem settles_witnessed {checkedAt adoptedAt : Option (Check T)} {a b : T.Block}
    {move : Option (T.Block × T.Block)} {s' : Tracker T.Block} (ha : SeenAt adoptedAt a)
    (hb : SeenAt checkedAt b) (hsettles : Tracker.Settles T.tree a b move s') :
    (∀ m, move = some m → ¬ T.tree.IsAncestor m.2 m.1 ∧ SeenAt adoptedAt m.1 ∧
      SeenAt checkedAt m.2) ∧
    WitnessedBy checkedAt (if s'.best = some a then adoptedAt else checkedAt) s' := by
  cases hsettles with
  | working => exact ⟨by simp, by simpa [Tracker.best, WitnessedBy] using ⟨ha, hb⟩⟩
  | stay => exact ⟨by simp, by simpa [Tracker.best, WitnessedBy] using ha⟩
  | move hba =>
      have hne : b ≠ a := ParentTree.ne_of_not_isAncestor hba
      refine ⟨fun m hm => ?_, by simpa [Tracker.best, WitnessedBy, hne] using hb⟩
      cases hm
      exact ⟨hba, ha, hb⟩

/-- One step of the tracker. A verdict that accepts a block is given while the
block is on the chain, and that is the latest check. Every other step leaves the
latest check alone. -/
theorem step_witnessed {w : Witnessed T} {s s' : Tracker T.Block} {e : WorldEvent T}
    {act : Act T.Block} {move : Option (T.Block × T.Block)} (htracks : w.world.Tracks s)
    (h : WitnessedBy w.checkedAt w.adoptedAt s) (hact : w.world.ActFor s e act)
    (hstep : Tracker.Step T.tree s act move s') :
    (∀ m, move = some m → ¬ T.tree.IsAncestor m.2 m.1 ∧ SeenAt w.adoptedAt m.1 ∧
      SeenAt (w.nextCheckedAt e) m.2) ∧
    WitnessedBy (w.nextCheckedAt e)
      (if s'.best = s.best then w.adoptedAt else w.nextCheckedAt e) s' := by
  -- The block of an accepting verdict is on the chain of the latest check.
  have haccept : ∀ b, s.candidate = some b → act = .verdict true →
      SeenAt (w.nextCheckedAt e) b := by
    intro b hs hverdict
    subst hverdict
    cases hact with
    | answer _ hanswers =>
        cases hanswers with
        | verdict b' hs' htip canonical hcanonical =>
            cases hs.symm.trans hs'
            exact ⟨_, nextCheckedAt_answer htracks hs, hcanonical.mp rfl⟩
    | lose _ _ hlose => simp at hlose
  cases hstep with
  | attach => exact ⟨by simp, trivial⟩
  | receiveFirst b => exact ⟨by simp, trivial⟩
  | rejectFirst b => exact ⟨by simp, trivial⟩
  | acceptFirst b => exact ⟨by simp, haccept b rfl rfl⟩
  | prepare b =>
      rw [nextCheckedAt_of_no_candidate htracks rfl]
      exact ⟨by simp, h⟩
  | ready b =>
      -- The first best block is adopted by the check that found it.
      rw [nextCheckedAt_of_no_candidate htracks rfl]
      exact ⟨by simp, h⟩
  | abandon b => exact ⟨by simp, trivial⟩
  | receive a b => exact ⟨by simp, by simpa [Tracker.best, WitnessedBy] using h⟩
  | reject a b => exact ⟨by simp, by simpa [Tracker.best, WitnessedBy] using h⟩
  | accept a b hsettles => exact settles_witnessed h (haccept b rfl rfl) hsettles
  | work a b hsettles =>
      rw [nextCheckedAt_of_no_candidate htracks rfl]
      exact settles_witnessed h.1 h.2 hsettles
  | stop => exact ⟨by simp, trivial⟩
  | exit => exact ⟨by simp, trivial⟩
  | detach => exact ⟨by simp, trivial⟩

/-- The listener tracks, and the two snapshots witness what it holds. -/
def Witnessed.Sound (w : Witnessed T) : Prop :=
  ∃ s, w.world.Tracks s ∧ WitnessedBy w.checkedAt w.adoptedAt s

/-- A step of a sound world is sound. It sends nothing, or the broadcast of a move of
the current best block that the two checks witness. -/
theorem Witnessed.step_sound (hlaw : env.Lawful T) {w w' : Witnessed T} {e : WorldEvent T}
    (h : w.Sound) (hstep : w.step e = some w') :
    w'.Sound ∧ (w'.world.listener.sent = w.world.listener.sent ∨
      ∃ a b : T.Block, w'.world.listener.sent = w.world.listener.sent ++ [T.broadcast a b] ∧
        w.world.listener.currentBestBlock = some a.hashAndNumber ∧
        w'.world.listener.currentBestBlock = some b.hashAndNumber ∧
        ¬ T.tree.IsAncestor b a ∧ SeenAt w.adoptedAt a ∧ SeenAt w'.checkedAt b) := by
  obtain ⟨s, htracks, hwitnessed⟩ := h
  obtain ⟨world, hworld, rfl⟩ := Option.map_eq_some_iff.mp hstep
  cases World.step_moves hlaw htracks hworld with
  | ofNode hlistener htracks' hnode =>
      -- The node's steps are not checks, and change no best block of the listener.
      have hchecked : w.nextCheckedAt e = w.checkedAt := by
        rcases hnode with ⟨b, newBest, rfl, -⟩ | ⟨b, rfl, -⟩ <;> rfl
      refine ⟨⟨s, htracks', ?_⟩, Or.inl (congrArg Listener.sent hlistener)⟩
      show WitnessedBy (w.nextCheckedAt e) (if _ then _ else _) s
      rw [hlistener, if_pos rfl, hchecked]
      exact hwitnessed
  | ofListener hnode act move s' hact htstep htracks' hsent =>
      obtain ⟨hmove, hwitnessed'⟩ := step_witnessed htracks hwitnessed hact htstep
      refine ⟨⟨s', htracks', ?_⟩, ?_⟩
      · show WitnessedBy (w.nextCheckedAt e) (if _ then _ else _) s'
        -- The listener's best block changes exactly when the tracker's does.
        have hinj := Option.map_injective (BlockTree.Block.hashAndNumber_injective (T := T))
        rw [htracks.currentBestBlock, htracks'.currentBestBlock]
        simpa only [hinj.eq_iff] using hwitnessed'
      · cases move with
        | none => exact Or.inl (by simpa [moveBroadcast] using hsent)
        | some m =>
            obtain ⟨a, b⟩ := m
            obtain ⟨hs, rfl, -⟩ := htstep.of_move
            refine Or.inr ⟨a, b, hsent, ?_, htracks'.currentBestBlock, hmove _ rfl⟩
            rw [htracks.currentBestBlock]
            rcases hs with rfl | rfl <;> rfl

/-- What a broadcast says is witnessed by the two checks. Its blocks are below `b`, so
they are on the chain that `b` was found on. Its retracted blocks are below `a`, and a
retracted block on the chain of `b` would put `b` below `a`. -/
theorem broadcast_witnessed {a b checked adopted : T.Block} (hba : ¬ T.tree.IsAncestor b a)
    (ha : T.tree.IsAncestor a adopted) (hb : T.tree.IsAncestor b checked) :
    (∀ x ∈ (T.broadcast a b).blocks,
      ∃ y : T.Block, x = y.blockExt ∧ T.tree.IsAncestor y checked) ∧
    ∀ data, (T.broadcast a b).maybeReorgData = some data → ∀ x ∈ data.retracted,
      ∃ y : T.Block, x = y.hashAndNumber ∧ T.tree.IsAncestor y adopted ∧
        ¬ T.tree.IsAncestor y checked := by
  constructor
  · intro x hx
    obtain ⟨y, hy, rfl⟩ := List.mem_map.mp hx
    exact ⟨y, rfl, (ParentTree.mem_branch.mp hy).1.trans hb⟩
  · intro data hdata x hx
    obtain ⟨hab, rfl⟩ := maybeReorgData_eq_some hdata
    obtain ⟨y, hy, rfl⟩ := List.mem_map.mp hx
    obtain ⟨hya, hyb⟩ := ParentTree.mem_branch.mp hy
    refine ⟨y, rfl, hya.trans ha, fun hychecked => ?_⟩
    -- On one chain with `b`, the block is below `b`, or above it and then `b` is below `a`.
    rcases hychecked.total hb with hyb' | hby
    · exact hyb hyb'
    · exact hba (hby.trans hya)

/-- The messages are truthful, under every interleaving. In every run of a world
whose node changes its best block at will, and with any number of lost connections, a
step sends one message or none, and a message is sent for a change of the current
best block from `a` to `b`. The latest canonical check is that of `b`, and the blocks
of the message are on the node's chain of that moment. The retracted blocks are on
the node's chain at the check by which `a` was adopted, and not on the chain at the
check of `b`. -/
theorem broadcasts_truthful (hlaw : env.Lawful T) {node : Node T} {w w' : Witnessed T}
    {events : List (WorldEvent T)} {e : WorldEvent T}
    (hrun : run Witnessed.step (Witnessed.init node) events = some w)
    (hstep : w.step e = some w') :
    ∃ messages : List BlocksExt,
      w'.world.listener.sent = w.world.listener.sent ++ messages ∧ messages.length ≤ 1 ∧
      ∀ message ∈ messages, ∃ a b checked adopted : T.Block,
        w.world.listener.currentBestBlock = some a.hashAndNumber ∧
        w'.world.listener.currentBestBlock = some b.hashAndNumber ∧
        w'.checkedAt = some ⟨b.item, checked⟩ ∧ w.adoptedAt = some ⟨a.item, adopted⟩ ∧
        (∀ x ∈ message.blocks, ∃ y : T.Block, x = y.blockExt ∧ T.tree.IsAncestor y checked) ∧
        ∀ data, message.maybeReorgData = some data → ∀ x ∈ data.retracted,
          ∃ y : T.Block, x = y.hashAndNumber ∧ T.tree.IsAncestor y adopted ∧
            ¬ T.tree.IsAncestor y checked := by
  have hinit : (Witnessed.init node).Sound := ⟨.detached, tracks_init, trivial⟩
  have hsound : w.Sound :=
    run_invariant (fun _ _ _ h hs => (Witnessed.step_sound hlaw h hs).1) events _ w hinit hrun
  obtain ⟨-, hquiet | ⟨a, b, hmove, hcur, hcur', hba, hadopted, hchecked⟩⟩ :=
    Witnessed.step_sound hlaw hsound hstep
  · exact ⟨[], by rw [hquiet, List.append_nil], Nat.zero_le _, fun _ hmem => by cases hmem⟩
  · refine ⟨[T.broadcast a b], hmove, le_rfl, fun message hmem => ?_⟩
    rw [List.mem_singleton.mp hmem]
    obtain ⟨adopted, hadopted, haadopted⟩ := hadopted
    obtain ⟨checked, hchecked, hbchecked⟩ := hchecked
    exact ⟨a, b, checked, adopted, hcur, hcur', hchecked, hadopted,
      broadcast_witnessed hba haadopted hbchecked⟩

/-- The node goes from `2` to `3`, and the listener with it. Then its best block becomes
the other fork, and the listener receives and checks `4`. -/
def forkSwitch : List (WorldEvent forkTree) :=
  forkStart ++
    [.importBlock (forkBlock 3) true, .deliver (forkBlock 3), .answer,
     .importBlock (forkBlock 4) false, .setBest (forkBlock 4), .deliver (forkBlock 4)]

/-- The states before and after the check of `4`. -/
def forkBeforeCheck : Witnessed forkTree :=
  (run Witnessed.step (Witnessed.init forkNode) forkSwitch).get (by decide)

/-- The world after the canonical check of the fork's block. -/
def forkAfterCheck : Witnessed forkTree := (forkBeforeCheck.step .answer).get (by decide)

/-- The check of `4` sends the reorg: `4` is on the chain of the check, and `3` was on
the chain when it was adopted. -/
theorem broadcasts_truthful_fork :
    run Witnessed.step (Witnessed.init forkNode) forkSwitch = some forkBeforeCheck ∧
    ∃ a b checked adopted : forkTree.Block,
      forkAfterCheck.checkedAt = some ⟨b.item, checked⟩ ∧
      forkBeforeCheck.adoptedAt = some ⟨a.item, adopted⟩ ∧
      ∀ data, (forkTree.broadcast (forkBlock 3) (forkBlock 4)).maybeReorgData = some data →
        ∀ x ∈ data.retracted, ∃ y : forkTree.Block, x = y.hashAndNumber ∧
          forkTree.tree.IsAncestor y adopted ∧ ¬ forkTree.tree.IsAncestor y checked := by
  have hrun : run Witnessed.step (Witnessed.init forkNode) forkSwitch = some forkBeforeCheck :=
    (Option.some_get _).symm
  have hstep : forkBeforeCheck.step .answer = some forkAfterCheck := (Option.some_get _).symm
  have hsent : forkAfterCheck.world.listener.sent = forkBeforeCheck.world.listener.sent
      ++ [forkTree.broadcast (forkBlock 3) (forkBlock 4)] := by decide
  obtain ⟨messages, hmessages, -, htruthful⟩ := broadcasts_truthful forkTree_lawful hrun hstep
  rw [hsent, List.append_cancel_left_eq] at hmessages
  obtain ⟨a, b, checked, adopted, -, -, hchecked, hadopted, -, hretracted⟩ :=
    htruthful _ (hmessages ▸ List.mem_singleton_self _)
  exact ⟨hrun, a, b, checked, adopted, hchecked, hadopted, hretracted⟩

end ChainAlerter
