import ChainAlerter.Proofs.Truthful

/-!
# `ChainAlerter.Proofs.Survival`: what an honest node can do to the listener

A connected node answers every request, but `chain_get_block_hash` has no hash
above the tip of the best chain, and the listener takes that for a missing block
and returns. A block of a fork that is longer than the best chain does this, and
so does a best chain that gets shorter during the header load
(`longer_fork_ends_listener`).

`asksWithinTip` says of a step that its query, if it makes one, is for a number on
the best chain. `Phase.Live` is the invariant of runs of such steps: no request of
the header load has failed, and the listener has not returned.
`listener_survives_within_tip` is the result.
-/

set_option autoImplicit false

namespace ChainAlerter

open ChainAlerter.Library
open ChainAlerter.Abstract

variable {env : Externals} {T : BlockTree env}

/-- The event is a lost connection. -/
def WorldEvent.isLoss : WorldEvent T → Bool
  | .lose _ => true
  | _ => false

/-- The number that a request of the header load asks for is on the best chain. -/
def LoadSlot.withinTip (node : Node T) : LoadSlot → Bool
  | .blockHash number => number ≤ node.best.number
  | _ => true

/-- The number that the answered query asks for is on the best chain. -/
def asksWithinTip (w : World T) : WorldEvent T → Bool
  | .answer =>
      match w.listener.phase with
      | .loadCanonical block => block.number ≤ w.node.best.number
      | .listenCanonical _ block => block.number ≤ w.node.best.number
      | _ => true
  | .answerSlot slot =>
      match w.listener.phase with
      | .loadRange _ slots => (slots[slot]?.map (LoadSlot.withinTip w.node)).getD true
      | _ => true
  | _ => true

/-! ### The canonical checks -/

/-- The answer to a query on the best chain. -/
theorem canonical_answer {node : Node T} {b : T.Block} (htip : b.number ≤ node.best.number) :
    ∃ hash, node.chainGetBlockHash b.item.number = some hash ∧
      (b.item.hash = hash ↔ T.tree.IsAncestor b node.best) := by
  rcases chainGetBlockHash_cases node b with ⟨-, hanswer⟩ | ⟨habove, -⟩
  · exact hanswer
  · exact absurd htip (Nat.not_le.mpr habove)

/-- The check of the first block: off the best chain it is skipped. -/
theorem World.answer_loadCanonical {w w' : World T} {b : T.Block}
    (hphase : w.listener.phase = .loadCanonical b.item) (htip : b.number ≤ w.node.best.number)
    (hstep : w.step .answer = some w') :
    w' = { w with listener := { w.listener with
      phase := if T.tree.IsAncestor b w.node.best then .loadHead b.hash else .loadNext } } := by
  obtain ⟨node, cache, sent, phase⟩ := w
  cases hphase
  obtain ⟨hash, hanswer, hcanonical⟩ := canonical_answer htip
  simp only [World.step, Node.reply, Option.bind_some, hanswer, World.hear] at hstep
  by_cases hhash : b.item.hash = hash
  · rw [step_loadCanonical_of_eq hhash] at hstep
    rw [if_pos (hcanonical.mp hhash)]
    exact (Option.some.inj hstep).symm
  · rw [step_loadCanonical_of_ne hhash] at hstep
    rw [if_neg (fun hon => hhash (hcanonical.mpr hon))]
    exact (Option.some.inj hstep).symm

/-- The check of a received block that is off the best chain: it is skipped. -/
theorem World.answer_listenCanonical {w w' : World T} {best : HashAndNumber} {b : T.Block}
    (hphase : w.listener.phase = .listenCanonical best b.item)
    (htip : b.number ≤ w.node.best.number) (hoff : ¬ T.tree.IsAncestor b w.node.best)
    (hstep : w.step .answer = some w') :
    w' = { w with listener := { w.listener with phase := .listenNext best } } := by
  obtain ⟨node, cache, sent, phase⟩ := w
  cases hphase
  obtain ⟨hash, hanswer, hcanonical⟩ := canonical_answer htip
  simp only [World.step, Node.reply, Option.bind_some, hanswer, World.hear] at hstep
  rw [step_listenCanonical_of_ne (fun hhash => hoff (hcanonical.mp hhash))] at hstep
  exact (Option.some.inj hstep).symm

/-- The check of a block above the tip: the listener returns. The node has no block at
that number on its chain, and the source takes this for an error. -/
theorem World.answer_aboveTip {w w' : World T} {b : T.Block}
    (hphase : w.listener.phase = .loadCanonical b.item ∨
      ∃ best, w.listener.phase = .listenCanonical best b.item)
    (habove : w.node.best.number < b.number) (hstep : w.step .answer = some w') :
    w'.listener.phase = .returned .missingBlock := by
  obtain ⟨node, cache, sent, phase⟩ := w
  have hnone : node.chainGetBlockHash b.item.number = none := by
    rcases chainGetBlockHash_cases node b with ⟨htip, -⟩ | ⟨-, hanswer⟩
    · exact absurd htip (Nat.not_le.mpr habove)
    · exact hanswer
  rcases hphase with hphase | ⟨best, hphase⟩
  · cases hphase
    simp only [World.step, Node.reply, Option.bind_some, hnone, World.hear] at hstep
    cases hstep
    rfl
  · cases hphase
    simp only [World.step, Node.reply, Option.bind_some, hnone, World.hear] at hstep
    cases hstep
    rfl

/-! ### The header load -/

/-- A request of the header load that has not failed, and asks for a header that
the node has. -/
def LoadSlot.Live (node : Node T) : LoadSlot → Prop
  | .blockHash _ => True
  | .header hash => ∃ b ∈ node.imported, b.hash = hash
  | .done (.ok _) => True
  | .done (.error _) => False

/-- The listener has not returned, and no request of the header load has failed. -/
def Phase.Live (node : Node T) : Phase → Prop
  | .loadRange _ slots => ∀ slot ∈ slots, slot.Live node
  | .returned _ => False
  | _ => True

/-- A node that imports blocks can still answer what it could answer before, so a
request that has not failed is still alive. -/
theorem LoadSlot.Live.mono {node node' : Node T}
    (hsub : ∀ b ∈ node.imported, b ∈ node'.imported) {slot : LoadSlot} (h : slot.Live node) :
    slot.Live node' := by
  cases slot with
  | blockHash => trivial
  | header hash =>
      obtain ⟨b, hb, hhash⟩ := h
      exact ⟨b, hsub b hb, hhash⟩
  | done result =>
      cases result with
      | ok => trivial
      | error => exact h

/-- The same for all requests of a phase. Imports of the node happen while the listener
waits, and they never make it fail. -/
theorem Phase.Live.mono {node node' : Node T}
    (hsub : ∀ b ∈ node.imported, b ∈ node'.imported) {p : Phase} (h : p.Live node) :
    p.Live node' := by
  cases p with
  | loadRange latest slots => exact fun slot hslot => (h slot hslot).mono hsub
  | returned => exact h
  | _ => trivial

/-- Requests that have not failed give no error, whether they are complete or not. -/
theorem tryCollect_of_live {node : Node T} (slots : List LoadSlot)
    (hlive : ∀ slot ∈ slots, slot.Live node) (err : Error) :
    tryCollect slots ≠ some (.error err) := by
  induction slots with
  | nil => simp [tryCollect]
  | cons slot slots ih =>
      have hslot := hlive slot List.mem_cons_self
      have hrest := ih fun slot' hslot' => hlive slot' (List.mem_cons_of_mem _ hslot')
      cases slot with
      | blockHash => simp [tryCollect]
      | header => simp [tryCollect]
      | done result =>
          cases result with
          | error => exact hslot.elim
          | ok header =>
              cases hcollect : tryCollect slots with
              | none => simp [tryCollect, hcollect]
              | some result =>
                  cases result with
                  | error err' => simp [tryCollect, hcollect, Except.map] at hrest ⊢; exact hrest
                  | ok headers => simp [tryCollect, hcollect, Except.map]

/-- The header load with requests that have not failed goes on, or hands over. -/
theorem loadProgress_live {node : Node T} (l : Listener) (latest : HashAndNumber)
    {slots : List LoadSlot} (hlive : ∀ slot ∈ slots, slot.Live node) :
    (l.loadProgress env latest slots).phase.Live node := by
  unfold Listener.loadProgress
  cases hcollect : tryCollect slots with
  | none => exact hlive
  | some result =>
      cases result with
      | error err => exact absurd hcollect (tryCollect_of_live slots hlive err)
      | ok headers =>
          simp only
          split
          · trivial
          · trivial

/-- The requests of the header load, before any answer. -/
theorem loadSlots_live (node : Node T) (latestNumber : Nat) :
    ∀ slot ∈ Listener.loadSlots latestNumber, slot.Live node := by
  intro slot hslot
  obtain ⟨number, -, rfl⟩ := List.mem_map.mp hslot
  trivial

/-- An answer of the node to one request of the header load, asked within the tip. The
node has a block at that number, and its header, so the request does not fail. -/
theorem answerSlot_live {node : Node T} {cache : HeadersMetadataCache} {sent : List BlocksExt}
    {latest : HashAndNumber} {slots : List LoadSlot} {slot : Nat} {request : LoadSlot}
    {reply : Reply} {l' : Listener} (hlive : ∀ slot ∈ slots, slot.Live node)
    (hrequest : slots[slot]? = some request) (hreply : node.slotReply slot request = some reply)
    (htip : request.withinTip node = true)
    (hstep : Listener.step env ⟨cache, sent, .loadRange latest slots⟩ reply = some l') :
    l'.phase.Live node := by
  -- The request after the answer.
  have hset : ∀ request', request'.Live node → ∀ slot' ∈ slots.set slot request',
      slot'.Live node := by
    intro request' hrequest' slot' hslot'
    rcases List.mem_or_eq_of_mem_set hslot' with hmem | rfl
    · exact hlive slot' hmem
    · exact hrequest'
  have hlive₀ := hlive request (List.mem_of_getElem? hrequest)
  cases request with
  | blockHash number =>
      cases hreply
      have hle : number ≤ node.best.number := by simpa [LoadSlot.withinTip] using htip
      simp only [Listener.step, Listener.answerSlot, hrequest, Node.chainGetBlockHash,
        BlockTree.blockHashAt, if_pos hle, LoadSlot.answerBlockHash, okOrMissingBlock,
        Option.bind_eq_bind, Option.bind_eq_some_iff, Option.pure_def, Option.some.injEq,
        Option.bind_some] at hstep
      obtain ⟨-, -, rfl⟩ := hstep
      -- The answered hash is that of an ancestor of the best block.
      refine loadProgress_live _ _ (hset _ ⟨T.tree.atHeight node.best number, ?_, rfl⟩)
      exact node.mem_of_isAncestor (ParentTree.isAncestor_atHeight hle) node.best_mem
  | header hash =>
      cases hreply
      obtain ⟨b, hb, rfl⟩ := hlive₀
      simp only [Listener.step, Listener.answerSlot, hrequest, chainGetHeader_of_mem hb,
        LoadSlot.answerHeader, okOrMissingBlock, Option.bind_eq_bind, Option.bind_eq_some_iff,
        Option.pure_def, Option.some.injEq, Option.bind_some] at hstep
      obtain ⟨-, -, rfl⟩ := hstep
      exact loadProgress_live _ _ (hset _ trivial)
  | done result => cases hreply

/-! ### Runs within the tip -/

/-- A tracker that is neither preparing its first best node nor stopped shows a phase in
which nothing has failed. -/
theorem Phase.Shows.live {S : T.Block → Prop} {p : Phase} {s : Tracker T.Block}
    (h : p.Shows S s) (node : Node T) (hstarting : ∀ b, s ≠ .starting b) (hstopped : s ≠ .stopped) :
    p.Live node := by
  cases h with
  | loadRange b => exact absurd rfl (hstarting b)
  | returned => exact absurd rfl hstopped
  | _ => trivial

/-- A tracker that settles goes on working or has taken a position, and in neither
case a request has failed. So the rounds of the listener do not end it when their
answers are good. -/
theorem Settles.live {S : T.Block → Prop} {p : Phase} {a b : T.Block}
    {move : Option (T.Block × T.Block)} {s : Tracker T.Block}
    (hsettles : Tracker.Settles T.tree a b move s)
    (h : p.Shows S s) (node : Node T) : p.Live node := by
  cases hsettles with
  | working => exact h.live node (by simp) (by simp)
  | stay => exact h.live node (by simp) (by simp)
  | move => exact h.live node (by simp) (by simp)

/-- The candidate of the tracker is what a canonical check asks for, so within the tip
its number is at most that of the node's best block. -/
theorem World.Tracks.candidate_le {w : World T} {s : Tracker T.Block} (htracks : w.Tracks s)
    (htip : asksWithinTip w .answer = true) {b : T.Block} (hs : s.candidate = some b) :
    b.number ≤ w.node.best.number := by
  obtain ⟨node, cache, sent, phase⟩ := w
  obtain ⟨-, hphase⟩ := htracks
  cases hphase with
  | loadCanonical b' =>
      cases hs
      exact of_decide_eq_true htip
  | listenCanonical a b' =>
      cases hs
      exact of_decide_eq_true htip
  | _ => cases hs

/-- In a connected world and within the tip no answer is missing, and none is lost.
These are the two ways in which a listener ends. -/
theorem World.ActFor.not_failed {w : World T} {s : Tracker T.Block} {e : WorldEvent T}
    {act : Act T.Block} (hact : w.ActFor s e act) (htracks : w.Tracks s)
    (hconnected : e.isLoss = false) (htip : asksWithinTip w e = true) :
    act ≠ .missing ∧ act ≠ .lost := by
  cases hact with
  | deliver => simp
  | answerSlot => simp
  | lose => cases hconnected
  | answer _ hanswers =>
      cases hanswers with
      | verdict => simp
      | internal => simp
      | aboveTip b hs habove =>
          exact absurd (htracks.candidate_le htip hs) (Nat.not_le.mpr habove)

/-- The first best block is prepared: the header load starts, or one of its
requests is answered. -/
theorem World.preparing_live {w w' : World T} {b : T.Block} {e : WorldEvent T}
    (htracks : w.Tracks (.starting b)) (hlive : w.listener.phase.Live w.node)
    (hact : w.ActFor (.starting b) e .internal) (hconnected : e.isLoss = false)
    (htip : asksWithinTip w e = true) (hstep : w.step e = some w') :
    w'.listener.phase.Live w'.node := by
  obtain ⟨node, cache, sent, phase⟩ := w
  obtain ⟨-, hphase⟩ := htracks
  cases hphase with
  | loadHead _ hb =>
      cases hact with
      | answer =>
          simp only [World.step, Node.reply, Option.bind_some, chainGetHeader_of_mem hb, World.hear,
            Option.map_eq_some_iff] at hstep
          obtain ⟨l', hl', rfl⟩ := hstep
          cases hl'
          exact loadProgress_live _ _ (loadSlots_live node _)
      | answerSlot => cases hstep
      | lose => cases hconnected
  | loadRange _ hb slots hslots =>
      cases hact with
      | answerSlot slot =>
          obtain ⟨reply, hreply, hhear⟩ := Option.bind_eq_some_iff.mp hstep
          obtain ⟨request, hrequest, hslot⟩ := Option.bind_eq_some_iff.mp hreply
          obtain ⟨l', hl', rfl⟩ := Option.map_eq_some_iff.mp hhear
          refine answerSlot_live hlive hrequest hslot ?_ hl'
          simpa [asksWithinTip, hrequest] using htip
      | answer => cases hstep
      | lose => cases hconnected

/-- A step of a connected world within the tip keeps the listener alive. It is the step
of the invariant, and a check above the tip is what it has to exclude. -/
theorem World.step_live (hlaw : env.Lawful T) {w w' : World T} {s : Tracker T.Block}
    {e : WorldEvent T} (htracks : w.Tracks s) (hlive : w.listener.phase.Live w.node)
    (hconnected : e.isLoss = false) (htip : asksWithinTip w e = true)
    (hstep : w.step e = some w') : w'.listener.phase.Live w'.node := by
  cases World.step_moves hlaw htracks hstep with
  | ofNode hlistener htracks' hnode =>
      rw [hlistener]
      refine hlive.mono fun b hb => ?_
      rcases hnode with ⟨b', newBest, -, hadd⟩ | ⟨b', -, hset⟩
      · rw [(Source.add_eq_some hadd).2.1]
        exact List.mem_cons_of_mem _ hb
      · rw [(Source.setBest_eq_some hset).1]
        exact hb
  | ofListener hnode act move s' hact htstep htracks' =>
      obtain ⟨hmissing, hlost⟩ := hact.not_failed htracks hconnected htip
      -- Only the steps into `starting` and `stopped` leave something to show.
      cases htstep with
      | acceptFirst b =>
          cases hact with
          | answer _ hanswers =>
              have hphase : w.listener.phase = .loadCanonical b.item := by
                have hshows := htracks.phase
                generalize w.listener.phase = phase at hshows
                cases hshows
                rfl
              rw [World.answer_loadCanonical hphase (htracks.candidate_le htip rfl) hstep]
              show Phase.Live w.node (if _ then _ else _)
              split
              · trivial
              · trivial
          | lose => cases hconnected
      | prepare b => exact World.preparing_live htracks hlive hact hconnected htip hstep
      | abandon b => exact World.preparing_live htracks hlive hact hconnected htip hstep
      | stop => exact absurd rfl hmissing
      | exit => exact absurd rfl hlost
      | detach => exact absurd rfl hlost
      | accept a b hsettles => exact Settles.live hsettles htracks'.phase _
      | work a b hsettles => exact Settles.live hsettles htracks'.phase _
      | _ => exact htracks'.phase.live _ (by simp) (by simp)

/-- A connected world and its listener, alive. -/
def World.Alive (w : World T) : Prop :=
  ∃ s, w.Tracks s ∧ w.listener.phase.Live w.node

/-- Within the tip an honest node never ends the listener. In every run of a connected
world, with any blocks, any notifications and any changes of the best block, in which
every number asked for is on the best chain of that moment, the listener has not
returned and has not panicked, and a checked block that is not on the best chain is
skipped. A check above the tip ends it. -/
theorem listener_survives_within_tip (hlaw : env.Lawful T) {node : Node T} {w : World T}
    {events : List (WorldEvent T)} (hconnected : ∀ e ∈ events, e.isLoss = false)
    (htip : AllSteps World.step (fun w e => asksWithinTip w e = true) (World.init node) events)
    (hrun : run World.step (World.init node) events = some w) :
    (∀ err, w.listener.phase ≠ .returned err) ∧ w.listener.phase ≠ .panicked ∧
    (∀ w', w.step .answer = some w' → ∀ b : T.Block, b.number ≤ w.node.best.number →
      ¬ T.tree.IsAncestor b w.node.best →
      (w.listener.phase = .loadCanonical b.item →
        w' = { w with listener := { w.listener with phase := .loadNext } }) ∧
      ∀ best, w.listener.phase = .listenCanonical best b.item →
        w' = { w with listener := { w.listener with phase := .listenNext best } }) ∧
    ∀ w', w.step .answer = some w' → ∀ b : T.Block, w.node.best.number < b.number →
      (w.listener.phase = .loadCanonical b.item ∨
        ∃ best, w.listener.phase = .listenCanonical best b.item) →
      w'.listener.phase = .returned .missingBlock := by
  have halive : w.Alive := by
    refine run_invariant_of_allSteps ?_ events (World.init node) w ⟨.detached, tracks_init, trivial⟩
      (htip.and_mem hconnected) hrun
    rintro w e w' ⟨s, htracks, hlive⟩ ⟨htip, hconnected⟩ hstep
    have hlive' := World.step_live hlaw htracks hlive hconnected htip hstep
    cases World.step_moves hlaw htracks hstep with
    | ofNode _ htracks' => exact ⟨s, htracks', hlive'⟩
    | ofListener _ _ _ s' _ _ htracks' => exact ⟨s', htracks', hlive'⟩
  obtain ⟨s, htracks, hlive⟩ := halive
  refine ⟨fun err hreturned => ?_, htracks.not_panicked, ?_,
    fun w' hstep b habove hphase => World.answer_aboveTip hphase habove hstep⟩
  · rw [hreturned] at hlive
    exact hlive
  · intro w' hstep b hb hoff
    refine ⟨fun hphase => ?_, fun best hphase => ?_⟩
    · rw [World.answer_loadCanonical hphase hb hstep, if_neg hoff]
    · exact World.answer_listenCanonical hphase hb hoff hstep

/-- The node imports `3` as its best block, and the longer fork `4`, `6` beside it. -/
def forkLonger : List (WorldEvent forkTree) :=
  forkStart ++
    [.importBlock (forkBlock 3) true, .importBlock (forkBlock 4) false,
     .importBlock (forkBlock 6) false]

/-- The notification of `4` is skipped within the tip. -/
theorem listener_survives_within_tip_fork :
    ∃ w, run World.step (World.init forkNode) (forkLonger ++ [.deliver (forkBlock 4), .answer])
        = some w ∧
      (∀ err, w.listener.phase ≠ .returned err) ∧ w.listener.phase ≠ .panicked := by
  obtain ⟨w, hrun⟩ : ∃ w, run World.step (World.init forkNode)
      (forkLonger ++ [.deliver (forkBlock 4), .answer]) = some w := ⟨_, rfl⟩
  obtain ⟨hreturned, hpanicked, -⟩ := listener_survives_within_tip forkTree_lawful
    (by decide) (by decide) hrun
  exact ⟨w, hrun, hreturned, hpanicked⟩

/-- The notification of `6`, which is above the tip of the best chain, ends the listener
of a connected, honest node. -/
theorem longer_fork_ends_listener :
    (∀ e ∈ forkLonger ++ [.deliver (forkBlock 6), .answer], e.isLoss = false) ∧
    ∃ w, run World.step (World.init forkNode) (forkLonger ++ [.deliver (forkBlock 6), .answer])
        = some w ∧
      w.listener.phase = .returned .missingBlock :=
  ⟨by decide, _, rfl, rfl⟩

end ChainAlerter
