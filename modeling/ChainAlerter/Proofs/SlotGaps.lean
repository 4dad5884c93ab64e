import ChainAlerter.Proofs.Recovery
import ChainAlerter.Proofs.SlotPanics

/-!
# `ChainAlerter.Proofs.SlotGaps`: the slot monitor after a gap

The monitor takes only the slot after the last recorded one. When the proof for
that slot is lost, every later one is rejected, however many of them arrive in
order: the monitor stays where it is, and a stall that it has announced is never
closed. `slotMonitor_resyncs_iff` is about any run of proofs for consecutive slots
above the last recorded one. It is followed exactly when it starts right after it.
-/

set_option autoImplicit false

namespace ChainAlerter

open ChainAlerter.Library

/-- The events of received proofs. -/
def receivedProofs (infos : List PoTInfo) : List SlotEvent := infos.map fun info => .recv (.ok info)

/-- The last of consecutive slots is as many slots later as there are proofs after the first. -/
theorem slot_getLast?_of_isChain {info : PoTInfo} {infos : List PoTInfo}
    (h : (info :: infos).IsChain NextSlot) :
    (info :: infos).getLast?.map (fun last => last.proof.slot.toNat) =
      some (info.proof.slot.toNat + infos.length) := by
  induction infos generalizing info with
  | nil => simp
  | cons second infos ih =>
      obtain ⟨hnext, hrest⟩ := List.isChain_cons_cons.mp h
      rw [List.getLast?_cons_cons, ih hrest, hnext, List.length_cons]
      congr 1
      omega

/-- Slots in a chain are not below the first one. -/
theorem slot_le_of_isChain {info last : PoTInfo} {infos : List PoTInfo}
    (h : (info :: infos).IsChain NextSlot) (hlast : last ∈ info :: infos) :
    info.proof.slot.toNat ≤ last.proof.slot.toNat := by
  induction infos generalizing info with
  | nil => rw [List.mem_singleton.mp hlast]
  | cons second infos ih =>
      obtain ⟨hnext, hrest⟩ := List.isChain_cons_cons.mp h
      rcases List.mem_cons.mp hlast with rfl | hlast
      · exact Nat.le_refl _
      · have hle := ih hrest hlast
        rw [hnext] at hle
        omega

namespace SlotMonitor

variable {config : SlotsConfig} {m m' : SlotMonitor} {e : SlotEvent} {start₀ : Instant}

/-- A round only adds alerts. What has been sent into the channel cannot be taken back. -/
theorem Round.alerts_grow (h : Round config m e m') : m.alerts <+: m'.alerts := by
  cases h with
  | first info hlast => exact List.prefix_rfl
  | «extends» info last hlast hnext =>
      rw [extend]
      split
      · exact (List.prefix_append _ _).trans (List.prefix_append _ _)
      · exact ((List.prefix_append _ _).trans (List.prefix_append _ _)).trans
          (List.prefix_append _ _)
  | rejects info last hlast hnext hmax => exact List.prefix_rfl
  | overflows info last hlast hmax => exact List.prefix_rfl
  | closed err => exact List.prefix_rfl
  | elapsed => exact List.prefix_append _ _

/-- A run only appends alerts, so what the monitor has announced by some moment
stays announced. -/
theorem run_alerts_grow {events : List SlotEvent} (hrun : run (step config) m events = some m') :
    m.alerts <+: m'.alerts :=
  run_invariant (P := fun m' : SlotMonitor => m.alerts <+: m'.alerts)
    (fun _ _ _ h hstep => h.trans (step_round hstep).2.alerts_grow) events m m' List.prefix_rfl
    hrun

/-- A stall that was announced and not closed is remembered. -/
theorem run_fired_of_pending {events : List SlotEvent}
    (hrun : run (step config) (init start₀) events = some m) :
    pending m.stallState.trace ≠ none → m.timeoutFired ≠ none :=
  run_invariant
    (P := fun m : SlotMonitor => pending m.stallState.trace ≠ none → m.stallState.fired ≠ none)
    (fun _ _ _ h hstep => (step_round hstep).2.stallStep.fired_of_pending h) events _ m
    (fun h => absurd rfl h) hrun

/-- Proofs that do not follow the last slot leave the monitor as it is, however many
there are. The condition is about the last recorded slot, which they do not change. -/
theorem run_rejected {last : SlotDetails} (hrunning : m.status = .running)
    (hlast : m.slots.last? = some last) (hmax : last.proof.slot.toNat + 1 ≠ 2 ^ 64)
    {infos : List PoTInfo}
    (hinfos : ∀ info ∈ infos, info.proof.slot.toNat ≠ last.proof.slot.toNat + 1) :
    run (step config) m (receivedProofs infos) = some m := by
  induction infos with
  | nil => rfl
  | cons info infos ih =>
      obtain ⟨m₁, hstep⟩ := exists_step config (.recv (.ok info)) hrunning
      have hsame : m₁ = m := by
        have hinfo := hinfos info List.mem_cons_self
        -- Of the rounds on a proof only the rejection is left.
        cases (step_round hstep).2 with
        | first _ hnone => rw [hlast] at hnone; cases hnone
        | «extends» _ _ hlast' hnext =>
            rw [hlast] at hlast'
            cases hlast'
            exact absurd hnext hinfo
        | rejects => rfl
        | overflows _ _ hlast' hmax' =>
            rw [hlast] at hlast'
            cases hlast'
            exact absurd hmax' hmax
      refine run_cons_eq_some.mpr ⟨m₁, hstep, ?_⟩
      rw [hsame]
      exact ih fun info' hinfo' => hinfos info' (List.mem_cons_of_mem _ hinfo')

/-- A proof that follows the last slot extends the chain, and recovers. When the proofs
are in order the sum of the window does not overflow, so the monitor runs on. -/
theorem step_next (config : SlotsConfig) {history : List PoTInfo} {last info : PoTInfo}
    (hrecords : Records start₀ history m) (hrunning : m.status = .running)
    (hlast : history.getLast? = some last) (hnext : NextSlot last info)
    (horder : InOrder (history ++ [info])) :
    ∃ m', m.step config (.recv (.ok info)) = some m' ∧ m'.status = .running ∧
      Records start₀ (history ++ [info]) m' ∧
      ∀ duration, m.timeoutFired = some duration →
        Alert.timekeeperRecovery { slot := info.proof.slot.toNat, duration := duration } ∈
          m'.alerts.drop m.alerts.length := by
  obtain ⟨m', hstep⟩ := exists_step config (.recv (.ok info)) hrunning
  have hround := (step_round hstep).2
  -- The slot of `info` is the successor, so there is one.
  have hnextExists : HasNext history := by
    rw [HasNext, hlast]
    rintro _ ⟨⟩
    have hlt := info.proof.slot.toNat_lt
    rw [NextSlot] at hnext
    omega
  have hrunning' := (hround.running_iff hrecords horder hrunning).mpr hnextExists
  have hrecords' : Records start₀ (history ++ [info]) m' := by
    have h := hround.records hrecords
    have htaken : greedy NextSlot history.getLast? [info] = [info] :=
      greedy_cons_of_takes (by rw [hlast, takes_some]; exact hnext) []
    change Records start₀ (history ++ greedy NextSlot history.getLast? [info]) m' at h
    rw [htaken] at h
    exact h
  refine ⟨m', hstep, hrunning', hrecords', fun duration hduration => ?_⟩
  -- The window and the history end with the same proof.
  have hsame : ∀ details, m.slots.last? = some details → details.proof = last.proof := by
    intro details hdetails
    obtain ⟨last', hlast', hproof⟩ := hrecords.exists_last hdetails
    rw [hlast] at hlast'
    cases hlast'
    exact hproof.symm
  cases hround with
  | first _ hnone =>
      rw [hrecords.last?_eq_none_iff, hlast] at hnone
      cases hnone
  | «extends» _ details hdetails _ =>
      rw [extend_eq (totalDuration_pushed_le hrecords horder), List.append_assoc,
        List.append_assoc, List.drop_left, hduration]
      exact List.mem_append_left _ List.mem_cons_self
  | rejects _ details hdetails hother _ =>
      rw [hsame details hdetails] at hother
      exact absurd hnext hother
  | overflows _ details hdetails hmax =>
      rw [hsame details hdetails] at hmax
      exact absurd hmax (hnextExists last hlast)

/-- A run of proofs from the next slot on is followed to its end. By induction on
the proofs, each of which is the next slot for the monitor that has recorded
those before it. -/
theorem run_next (config : SlotsConfig) {history : List PoTInfo} {last : PoTInfo}
    {infos : List PoTInfo}
    (hrecords : Records start₀ history m) (hrunning : m.status = .running)
    (hlast : history.getLast? = some last) (hchain : (last :: infos).IsChain NextSlot)
    (horder : InOrder (history ++ infos)) :
    ∃ m', run (step config) m (receivedProofs infos) = some m' ∧ m'.status = .running ∧
      Records start₀ (history ++ infos) m' ∧
      (infos ≠ [] → ∀ duration, m.timeoutFired = some duration →
        ∃ recovery, Alert.timekeeperRecovery recovery ∈ m'.alerts.drop m.alerts.length) := by
  induction infos generalizing m history last with
  | nil => exact ⟨m, rfl, hrunning, by rwa [List.append_nil], fun h => absurd rfl h⟩
  | cons info infos ih =>
      obtain ⟨hnext, hrest⟩ := List.isChain_cons_cons.mp hchain
      rw [List.append_cons] at horder
      obtain ⟨m₁, hstep, hrunning₁, hrecords₁, hrecovery⟩ := step_next config hrecords
        hrunning hlast hnext (horder.sublist (List.sublist_append_left _ _))
      obtain ⟨m', hrun, hrunning', hrecords', -⟩ := ih hrecords₁ hrunning₁
        (by rw [List.getLast?_concat]) hrest horder
      refine ⟨m', run_cons_eq_some.mpr ⟨m₁, hstep, hrun⟩, hrunning', ?_, ?_⟩
      · rwa [List.append_cons]
      · -- The first proof recovers, and its alert stays in the later ones.
        intro _ duration hduration
        refine ⟨_, List.IsPrefix.subset ?_ (hrecovery duration hduration)⟩
        exact (run_alerts_grow hrun).drop _

/-- The last slot of the window is the last recorded one. -/
theorem Records.lastSlot {history : List PoTInfo} (h : Records start₀ history m) :
    m.lastSlot = history.getLast?.map fun info => info.proof.slot := by
  have hproof := congrArg (Option.map GossipProof.slot) h.last?
  rw [Option.map_map, Option.map_map] at hproof
  exact hproof

end SlotMonitor

/-- The monitor resynchronises after a gap only if there is none. Take any state that a
running monitor reaches, with last slot `l`, and proofs for consecutive slots above `l`,
received in order. They bring the monitor to the last of them, and close a stall that
was announced, if and only if they start at `l + 1`. -/
theorem slotMonitor_resyncs_iff (config : SlotsConfig) (start₀ : Instant)
    {before : List SlotEvent} {m : SlotMonitor} {l : Slot} {info : PoTInfo} {infos : List PoTInfo}
    (hrun : run (SlotMonitor.step config) (SlotMonitor.init start₀) before = some m)
    (hrunning : m.status = .running) (hl : m.lastSlot = some l)
    (hburst : (info :: infos).IsChain NextSlot) (habove : l.toNat < info.proof.slot.toNat)
    (horder : InOrder (messages before ++ info :: infos)) :
    ∃ m', run (SlotMonitor.step config) m (receivedProofs (info :: infos)) = some m' ∧
      m'.status = .running ∧
      (m'.lastSlot.map UInt64.toNat = some (info.proof.slot.toNat + infos.length) ∧
        (pending (m.alerts.filterMap Alert.timekeeperMark?) ≠ none →
          ∃ recovery, .timekeeperRecovery recovery ∈ m'.alerts.drop m.alerts.length) ↔
      info.proof.slot.toNat = l.toNat + 1) := by
  have hrecords := SlotMonitor.run_records config start₀ before m hrun
  have hlast := hrecords.lastSlot
  rw [hl] at hlast
  obtain ⟨last, hgetLast, rfl⟩ := Option.map_eq_some_iff.mp hlast.symm
  by_cases hnext : info.proof.slot.toNat = last.proof.slot.toNat + 1
  · -- No gap: the proofs continue the chain of the recorded ones.
    have hchain : (last :: info :: infos).IsChain NextSlot :=
      List.isChain_cons_cons.mpr ⟨hnext, hburst⟩
    have horder' : InOrder (recorded before ++ info :: infos) :=
      horder.sublist ((greedy_sublist none (messages before)).append_right _)
    obtain ⟨m', hrun', hrunning', hrecords', hrecovery⟩ :=
      SlotMonitor.run_next config hrecords hrunning hgetLast hchain horder'
    refine ⟨m', hrun', hrunning', iff_of_true ⟨?_, fun hpending => ?_⟩ hnext⟩
    · rw [hrecords'.lastSlot, List.getLast?_append_of_ne_nil _ (List.cons_ne_nil _ _),
        Option.map_map]
      exact slot_getLast?_of_isChain hburst
    · obtain ⟨duration, hduration⟩ :=
        Option.ne_none_iff_exists'.mp (SlotMonitor.run_fired_of_pending hrun hpending)
      exact hrecovery (List.cons_ne_nil _ _) duration hduration
  · -- All proofs are above the next slot, so all are rejected.
    obtain ⟨details, hdetails, hproof⟩ : ∃ details, m.slots.last? = some details ∧
        details.proof = last.proof := by
      have h := hrecords.last?
      rw [hgetLast] at h
      exact Option.map_eq_some_iff.mp h
    have hlt := info.proof.slot.toNat_lt
    have hrejected : run (SlotMonitor.step config) m (receivedProofs (info :: infos)) = some m := by
      refine SlotMonitor.run_rejected hrunning hdetails ?_ fun later hlater => ?_
      · rw [hproof]
        omega
      · have hle := slot_le_of_isChain hburst hlater
        rw [hproof]
        omega
    refine ⟨m, hrejected, hrunning, iff_of_false (fun h => ?_) hnext⟩
    have hslot := h.1
    rw [hl, Option.map_some, Option.some.injEq] at hslot
    omega

/-! ### A stall, with and without a gap -/

/-- A monitor that has recorded slot `5` and announced a stall. -/
def stalledEvents : List SlotEvent := [gossip 1 5, .elapsed]

/-- Slots `6` and `7` end the stall. -/
theorem slotMonitor_resyncs_iff_next :
    ∃ m m', run (SlotMonitor.step .default) (SlotMonitor.init (.ofSecs 0)) stalledEvents = some m ∧
      run (SlotMonitor.step .default) m (receivedProofs [potInfo 40 6, potInfo 41 7]) = some m' ∧
      m'.lastSlot.map UInt64.toNat = some 7 ∧
      ∃ recovery, .timekeeperRecovery recovery ∈ m'.alerts.drop m.alerts.length := by
  obtain ⟨m', hrun', -, hiff⟩ := slotMonitor_resyncs_iff .default (.ofSecs 0)
    (show run _ _ stalledEvents = _ from rfl) rfl rfl
    (show [potInfo 40 6, potInfo 41 7].IsChain NextSlot by decide) (by decide) (by decide)
  obtain ⟨hslot, hrecovery⟩ := hiff.mpr rfl
  exact ⟨_, m', rfl, hrun', hslot, hrecovery (by decide)⟩

/-- The proof for slot `6` is lost. The monitor rejects `7` and `8`, and stays stalled. -/
theorem slotMonitor_stays_at_gap :
    ∃ m, run (SlotMonitor.step .default) (SlotMonitor.init (.ofSecs 0)) stalledEvents = some m ∧
      m.status = .running ∧ m.lastSlot = some 5 ∧
      pending (m.alerts.filterMap Alert.timekeeperMark?) ≠ none ∧
      [potInfo 40 7, potInfo 41 8].IsChain NextSlot ∧
      InOrder (messages stalledEvents ++ [potInfo 40 7, potInfo 41 8]) ∧
      run (SlotMonitor.step .default) m (receivedProofs [potInfo 40 7, potInfo 41 8]) = some m :=
  ⟨_, rfl, rfl, rfl, by decide, by decide, by decide, rfl⟩

end ChainAlerter
