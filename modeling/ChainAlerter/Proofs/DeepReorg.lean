import ChainAlerter.Abstract.Departure
import ChainAlerter.Proofs.Agreement
import ChainAlerter.Proofs.Broadcast

/-!
# `ChainAlerter.Proofs.DeepReorg`: which reorgs of the node are reported

The node's best block goes over from `a` to a block `b` on another branch. The
listener reports the reorg when it has `a` on its own chain and then meets the
new branch. Whether it meets it is decided by the canonical checks, and these
ask for the node's chain at the time of the check. A listener that lags behind
finds the blocks up to `a` off the chain, skips them, and has nothing to report
(`lagging_listener_reports_nothing`).

`deep_reorg_reported` is what holds: a listener that has come to `a` or above
it, and none of whose canonical checks from there to that of `b` is made while
the node's chain leaves `a`'s inside the branch, reports the whole branch.
-/

set_option autoImplicit false

namespace ChainAlerter

open ChainAlerter.Library
open ChainAlerter.Abstract

variable {env : Externals} {T : BlockTree env} {a b : T.Block}

/-- Reorg data was sent whose retracted blocks cover all of `a`'s branch off `b`'s chain. -/
def Reported (a b : T.Block) (sent : List BlocksExt) : Prop :=
  ∃ message ∈ sent, ∃ data, message.maybeReorgData = some data ∧
    (∀ x ∈ T.tree.branch b a, x.hashAndNumber ∈ data.retracted) ∧
    a.number - (T.tree.lca a b).number ≤ data.retracted.length

/-- What was reported stays reported when more messages are sent. -/
theorem Reported.append {sent : List BlocksExt} (h : Reported a b sent)
    (more : List BlocksExt) : Reported a b (sent ++ more) := by
  obtain ⟨message, hmem, hdata⟩ := h
  exact ⟨message, List.mem_append_left _ hmem, hdata⟩

/-- The broadcast of a move that retracts the branch reports it. The blocks of the
branch are off the chain of the new best block, so they are among the retracted ones
of the message. -/
theorem reported_of_retracts (hab : ¬ T.tree.IsAncestor a b) {m : T.Block × T.Block}
    (h : Retracts T.tree a b m) (sent : List BlocksExt) :
    Reported a b (sent ++ moveBroadcast T (some m)) := by
  obtain ⟨c, d⟩ := m
  have hsub : ∀ x ∈ T.tree.branch b a, x ∈ T.tree.branch d c := by
    intro x hx
    obtain ⟨hxa, hxb⟩ := ParentTree.mem_branch.mp hx
    exact ParentTree.mem_branch.mpr (h x hxa hxb)
  -- The branch holds `a` itself, so the old best block is not an ancestor of the new one.
  have hcd : ¬ T.tree.IsAncestor c d := by
    intro hcd
    obtain ⟨hac, had⟩ := h a (ParentTree.IsAncestor.refl _ _) hab
    exact had (hac.trans hcd)
  refine ⟨T.broadcast c d, List.mem_append_right _ List.mem_cons_self, _, if_neg hcd, ?_, ?_⟩
  · intro x hx
    exact List.mem_map_of_mem (hsub x hx)
  · show _ ≤ ((T.tree.branch d c).map _).length
    rw [List.length_map, ← length_retracted]
    -- A list without repetitions is no longer than one that holds all its elements.
    exact (List.subperm_of_subset (ParentTree.nodup_branch b a) hsub).length_le

/-! ### From `a` to the check of `b` -/

/-- A canonical check of `listen_for_blocks` is made while the node's chain has `a` on
it, or leaves `a`'s chain where it is still `b`'s. -/
def checksOn (a b : T.Block) (w : Subscribed T) : SubscribedEvent T → Bool
  | .answer =>
      match w.world.listener.phase with
      | .listenCanonical _ _ =>
          T.tree.IsAncestor a w.world.node.best ||
            T.tree.IsAncestor (T.tree.lca a w.world.node.best) b
      | _ => true
  | _ => true

/-- The listener has reported the branch, or is still on it. -/
def OnBranch (a b : T.Block) (w : Subscribed T) : Prop :=
  ∃ s, w.world.Tracks s ∧ (Reported a b w.world.listener.sent ∨ s.StaysOn T.tree a b)

/-- The listener has reported the branch, or is about to. -/
def LeavesBranch (a b : T.Block) (w : Subscribed T) : Prop :=
  ∃ s, w.world.Tracks s ∧ (Reported a b w.world.listener.sent ∨ s.Leaves T.tree a b)

/-- A step of the tracker that stays on the branch or retracts it. -/
theorem reported_or {w w' : Subscribed T} {move : Option (T.Block × T.Block)} {P : Prop}
    (hab : ¬ T.tree.IsAncestor a b)
    (hsent : w'.world.listener.sent = w.world.listener.sent ++ moveBroadcast T move)
    (h : P ∨ ∃ m, move = some m ∧ Retracts T.tree a b m) :
    Reported a b w'.world.listener.sent ∨ P := by
  rcases h with hP | ⟨m, rfl, hretracts⟩
  · exact Or.inr hP
  · rw [hsent]
    exact Or.inl (reported_of_retracts hab hretracts _)

/-- A step of the listener forgets no report. -/
theorem Reported.of_sent {w w' : Subscribed T} {move : Option (T.Block × T.Block)}
    (h : Reported a b w.world.listener.sent)
    (hsent : w'.world.listener.sent = w.world.listener.sent ++ moveBroadcast T move) :
    Reported a b w'.world.listener.sent := by
  rw [hsent]
  exact h.append _

/-- A canonical check on such a chain spares the branch. -/
theorem spares_of_checksOn {w : Subscribed T} {best : HashAndNumber} {block : SubxtBlock}
    (hphase : w.world.listener.phase = .listenCanonical best block)
    (h : checksOn a b w .answer = true) : Spares T.tree a b w.world.node.best := by
  simp only [checksOn, hphase, Bool.or_eq_true, decide_eq_true_eq] at h
  rcases h with hbest | hlca
  · exact Or.inl hbest
  · exact Or.inr fun x hxa hxbest =>
      (ParentTree.isAncestor_lca_iff.mpr ⟨hxa, hxbest⟩).trans hlca

/-- One step keeps the listener on the branch of `a`, or it has reported the branch by
then. The canonical checks are the only steps that could take it off, and the condition
on them rules that out. -/
theorem step_onBranch (hlaw : env.Lawful T) (hab : ¬ T.tree.IsAncestor a b)
    {w w' : Subscribed T} {e : SubscribedEvent T}
    (h : OnBranch a b w) (hchecks : checksOn a b w e = true) (hstep : w.step e = some w') :
    OnBranch a b w' := by
  obtain ⟨s, htracks, hbranch⟩ := h
  cases Subscribed.step_moves hlaw htracks hstep with
  | imports b' newBest he hadd hlistener htracks' =>
      rw [← hlistener] at hbranch
      exact ⟨s, htracks', hbranch⟩
  | receives b' hqueue hnode move s' htstep htracks' hsent =>
      rcases hbranch with hreported | hstays
      · exact ⟨s', htracks', Or.inl (hreported.of_sent hsent)⟩
      · exact ⟨s', htracks', Or.inr (hstays.receive htstep)⟩
  | answers he hqueue hnode act move s' hact htstep htracks' hsent =>
      rcases hbranch with hreported | hstays
      · exact ⟨s', htracks', Or.inl (hreported.of_sent hsent)⟩
      · refine ⟨s', htracks', reported_or hab hsent (hstays.answer hact ?_ htstep)⟩
        intro hcandidate
        -- A candidate of a tracker on the branch is in a canonical check of
        -- `listen_for_blocks`.
        rcases he with rfl | hnone
        · have hshows := htracks.phase
          cases s with
          | verifying c d =>
              generalize hphase : w.world.listener.phase = phase at hshows
              cases hshows
              exact spares_of_checksOn hphase hchecks
          | checking d => exact hstays.elim
          | _ => exact absurd rfl hcandidate
        · exact absurd hnone hcandidate

/-- Once `b` was found on the chain, every step goes on to the report. The route from
the branch of `a` to `b` retracts the whole branch, and a listener that computes it does
nothing else. -/
theorem step_leavesBranch (hlaw : env.Lawful T) (hab : ¬ T.tree.IsAncestor a b)
    {w w' : Subscribed T} {e : SubscribedEvent T} (h : LeavesBranch a b w)
    (hstep : w.step e = some w') : LeavesBranch a b w' := by
  obtain ⟨s, htracks, hbranch⟩ := h
  cases Subscribed.step_moves hlaw htracks hstep with
  | imports b' newBest he hadd hlistener htracks' =>
      rw [← hlistener] at hbranch
      exact ⟨s, htracks', hbranch⟩
  | receives b' hqueue hnode move s' htstep htracks' hsent =>
      rcases hbranch with hreported | hleaves
      · exact ⟨s', htracks', Or.inl (hreported.of_sent hsent)⟩
      · exact (hleaves.receive htstep).elim
  | answers he hqueue hnode act move s' hact htstep htracks' hsent =>
      rcases hbranch with hreported | hleaves
      · exact ⟨s', htracks', Or.inl (hreported.of_sent hsent)⟩
      · exact ⟨s', htracks', reported_or hab hsent (hleaves.answer hact htstep)⟩

/-- The canonical check of `b`, made while `b` is on the node's chain. The verdict
accepts `b`, and the route that is computed then retracts the branch of `a`. -/
theorem step_check (hlaw : env.Lawful T) (hab : ¬ T.tree.IsAncestor a b)
    (hba : ¬ T.tree.IsAncestor b a) {w w' : Subscribed T} {best : HashAndNumber}
    (h : OnBranch a b w) (hphase : w.world.listener.phase = .listenCanonical best b.item)
    (hb : T.tree.IsAncestor b w.world.node.best) (hstep : w.step .answer = some w') :
    LeavesBranch a b w' := by
  obtain ⟨s, htracks, hbranch⟩ := h
  have hs : ∃ c, s = .verifying c b := by
    have hshows := htracks.phase
    rw [hphase] at hshows
    generalize hitem : b.item = block at hshows
    cases hshows with
    | listenCanonical c d =>
        have hbd : b = d := BlockTree.Block.eq_of_hash_eq (congrArg SubxtBlock.hash hitem)
        exact ⟨c, by rw [hbd]⟩
  obtain ⟨c, rfl⟩ := hs
  cases Subscribed.step_moves hlaw htracks hstep with
  | imports b' newBest he => cases he
  | receives b' hqueue hnode move s' htstep => cases htstep
  | answers he hqueue hnode act move s' hact htstep htracks' hsent =>
      rcases hbranch with hreported | hstays
      · exact ⟨s', htracks', Or.inl (hreported.of_sent hsent)⟩
      · exact ⟨s', htracks', reported_or hab hsent
          (Tracker.StaysOn.leaves hstays hab hba hb hact htstep)⟩

/-- A deep reorg is reported to a listener that keeps up with it. An import takes the
node's best block from `a` to `b`, off at least the threshold of blocks of `a`'s chain.
At some later time the listener is at `a` or above it, and not in the middle of a tree
route. From there on no canonical check up to that of `b` is made while the node's chain
leaves `a`'s inside the branch, and that of `b` is made while `b` is on the node's
chain. Then, once the listener is idle, it has sent reorg data with at least the
threshold of retracted blocks, all of `a`'s branch among them. -/
theorem deep_reorg_reported (hlaw : env.Lawful T) {w₀ u u' v v' w w' : Subscribed T}
    {before mid late rest : List (SubscribedEvent T)} {c : T.Block} {threshold : Nat}
    {best best' : HashAndNumber} (hinit : w₀.Initial)
    (hbefore : run Subscribed.step w₀ before = some u)
    (ha : u.world.node.best = a) (hswitch : u.step (.importBlock b true) = some u')
    (hab : ¬ T.tree.IsAncestor a b)
    (hdepth : threshold ≤ a.number - (T.tree.lca a b).number)
    (hmid : run Subscribed.step u' mid = some v)
    (hadopted : v.world.listener.currentBestBlock = some c.hashAndNumber)
    (hroute : ∀ best block missing, v.world.listener.phase ≠ .listenRoute best block missing)
    (hac : T.tree.IsAncestor a c)
    (hchecks : AllSteps Subscribed.step (fun w e => checksOn a b w e = true) v late)
    (hlate : run Subscribed.step v late = some v')
    (hphase : v'.world.listener.phase = .listenCanonical best b.item)
    (hb : T.tree.IsAncestor b v'.world.node.best) (hcheck : v'.step .answer = some w)
    (hrest : run Subscribed.step w rest = some w')
    (hidle : w'.world.listener.phase = .listenNext best') :
    ∃ message ∈ w'.world.listener.sent, ∃ data, message.maybeReorgData = some data ∧
      (∀ x ∈ T.tree.branch b a, x.hashAndNumber ∈ data.retracted) ∧
      threshold ≤ data.retracted.length := by
  -- The imported block is new, so it is no ancestor of the old best block.
  have hba : ¬ T.tree.IsAncestor b a := by
    obtain ⟨world, hworld, -⟩ := Option.map_eq_some_iff.mp hswitch
    obtain ⟨node, hnode, -⟩ := Option.map_eq_some_iff.mp hworld
    obtain ⟨hnew, -, -⟩ := Source.add_eq_some hnode
    rw [← ha]
    exact u.world.node.not_isAncestor hnew u.world.node.best_mem
  have hv : OnBranch a b v := by
    have hreach : run Subscribed.step w₀ (before ++ .importBlock b true :: mid) = some v :=
      run_append_eq_some.mpr ⟨u, hbefore, run_cons_eq_some.mpr ⟨u', hswitch, hmid⟩⟩
    obtain ⟨s, htracks, -⟩ := Subscribed.run_agreed hlaw hinit hreach
    refine ⟨s, htracks, Or.inr ?_⟩
    -- The tracker's best block is `c`, and it is not computing a route.
    have hbest := htracks.currentBestBlock
    rw [hadopted] at hbest
    have hshows := htracks.phase
    cases s with
    | following d =>
        cases BlockTree.Block.hashAndNumber_injective (Option.some.inj hbest)
        exact hac
    | verifying d d' =>
        cases BlockTree.Block.hashAndNumber_injective (Option.some.inj hbest)
        exact hac
    | routing d d' =>
        generalize hp : v.world.listener.phase = phase at hshows
        cases hshows
        exact absurd hp (hroute _ _ _)
    | _ => cases hbest
  have hv' : OnBranch a b v' :=
    run_invariant_of_allSteps (fun _ _ _ h hC hstep => step_onBranch hlaw hab h hC hstep)
      late v v' hv hchecks hlate
  have hw' : LeavesBranch a b w' :=
    run_invariant (fun _ _ _ h hstep => step_leavesBranch hlaw hab h hstep) rest w w'
      (step_check hlaw hab hba hv' hphase hb hcheck) hrest
  obtain ⟨s, htracks, hreported | hleaves⟩ := hw'
  · obtain ⟨message, hmem, data, hdata, hcover, hlen⟩ := hreported
    exact ⟨message, hmem, data, hdata, hcover, Nat.le_trans hdepth hlen⟩
  · -- An idle listener is not computing a route.
    have hshows := htracks.phase
    rw [hidle] at hshows
    cases hshows
    exact hleaves.elim

/-! ### Two reorgs on a fork -/

/-- The listener at `2` takes `3`, which is the node's best block. -/
def adoptEvents : List (SubscribedEvent forkTree) :=
  startEvents ++ [.importBlock (forkBlock 3) true, .next, .answer]

/-- The node's best block goes over to `4` when the listener is at `3`, which reports it. -/
theorem deep_reorg_reported_fork :
    ∃ w, run Subscribed.step forkSubscribed
        (adoptEvents ++ [.importBlock (forkBlock 4) true, .next, .answer]) = some w ∧
      ∃ message ∈ w.world.listener.sent, ∃ data, message.maybeReorgData = some data ∧
        (∀ x ∈ forkTree.tree.branch (forkBlock 4) (forkBlock 3),
          x.hashAndNumber ∈ data.retracted) ∧ 1 ≤ data.retracted.length :=
  ⟨_, rfl, @deep_reorg_reported _ _ (forkBlock 3) (forkBlock 4) forkTree_lawful _ _ _ _ _ _ _
    adoptEvents [] [.next] [] (forkBlock 3) 1 _ _ forkSubscribed_initial rfl rfl rfl (by decide)
    (by decide) rfl rfl (by intro _ _ _ h; cases h) (ParentTree.IsAncestor.refl _ _) (by decide)
    rfl rfl (ParentTree.IsAncestor.refl _ _) rfl rfl rfl⟩

/-- The node's best block goes over from `3` to `4` before the listener checks `3`. The
listener skips `3`, goes from `2` to `4`, and has no reorg to report when both
notifications are processed. -/
theorem lagging_listener_reports_nothing :
    ∃ u u' w, run Subscribed.step forkSubscribed
        (startEvents ++ [.importBlock (forkBlock 3) true]) = some u ∧
      u.world.listener.currentBestBlock = some (forkBlock 2).hashAndNumber ∧
      u.world.node.best = forkBlock 3 ∧ u.step (.importBlock (forkBlock 4) true) = some u' ∧
      u'.world.node.best = forkBlock 4 ∧
      forkTree.tree.branch (forkBlock 4) (forkBlock 3) = [forkBlock 3] ∧
      u'.queue = [forkBlock 3, forkBlock 4] ∧
      run Subscribed.step u' [.next, .answer, .next, .answer] = some w ∧ w.queue = [] ∧
      w.world.listener.phase = .listenNext (forkBlock 4).hashAndNumber ∧
      ∀ message ∈ w.world.listener.sent, message.maybeReorgData = none := by
  refine ⟨_, _, _, rfl, rfl, rfl, rfl, rfl, ?_, ?_, rfl, rfl, rfl, ?_⟩
  · decide
  · decide
  · decide

end ChainAlerter
