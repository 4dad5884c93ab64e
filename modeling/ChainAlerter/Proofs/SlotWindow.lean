import ChainAlerter.Proofs.SlotPanics

/-!
# `ChainAlerter.Proofs.SlotWindow`: the window of the slot monitor

The window is a vector with a bound, and a push into a full one drops the newest
slot, not the oldest. So the window is the last slots recorded only until it is
full. From then on it is the first `599` slots ever recorded and the latest one
(`slotWindow_recent_iff`).

Its first entry is never dropped, and its duration is no time between two slots:
it is the time from the start of the monitor to the first proof
(`slotTimes_real_iff`). All other entries are times between two slots, and so are
the times of the slow slot alerts.
-/

set_option autoImplicit false

namespace ChainAlerter

open ChainAlerter.Library

/-! ### The recorded slots increase -/

/-- The recorded slots rise, so no slot is recorded twice. Each is the one after the
slot before it. -/
theorem pairwise_recorded (events : List SlotEvent) :
    (recorded events).Pairwise (fun a b => a.proof.slot.toNat < b.proof.slot.toNat) := by
  have hchain : ((recorded events).map fun info => info.proof.slot.toNat).IsChain (· < ·) := by
    refine List.isChain_map_of_isChain _ (fun a b hnext => ?_) (isChain_recorded events)
    rw [hnext]
    exact Nat.lt_succ_self _
  exact List.pairwise_map.mp (List.isChain_iff_pairwise.mp hchain)

/-- The first recorded slot is recorded once. -/
theorem proof_notMem_of_recorded {events : List SlotEvent} {first : PoTInfo}
    {history : List PoTInfo} (h : recorded events = first :: history) :
    ∀ info ∈ history, info.proof ≠ first.proof := by
  intro info hinfo heq
  have hpairwise := pairwise_recorded events
  rw [h, List.pairwise_cons] at hpairwise
  have hlt := hpairwise.1 info hinfo
  rw [heq] at hlt
  exact Nat.lt_irrefl _ hlt

/-! ### The latest slots -/

/-- The last `600` of some slots. -/
def latestSlots (slots : List SlotDetails) : List SlotDetails :=
  slots.drop (slots.length - SLOT_WINDOW)

/-- A history that fits into the window is its own latest part. -/
theorem latestSlots_of_length_le {slots : List SlotDetails} (h : slots.length ≤ SLOT_WINDOW) :
    latestSlots slots = slots := by
  rw [latestSlots, Nat.sub_eq_zero_of_le h, List.drop_zero]

/-- A full window that has lost a slot is not the latest slots: it still has the first
one, which is recorded once and so is not among the latest. -/
theorem kept_ne_latestSlots {events : List SlotEvent} {start₀ : Instant}
    (h : SLOT_WINDOW < (recorded events).length) :
    BoundedVec.kept SLOT_WINDOW (details start₀ (recorded events)) ≠
      latestSlots (details start₀ (recorded events)) := by
  intro heq
  obtain ⟨first, history, hhistory⟩ := List.exists_cons_of_length_pos (Nat.zero_lt_of_lt h)
  rw [hhistory, details, SLOT_WINDOW, BoundedVec.kept_cons, latestSlots, List.length_cons,
    length_details] at heq
  rw [hhistory, List.length_cons] at h
  obtain ⟨k, hk⟩ : ∃ k, history.length + 1 - SLOT_WINDOW = k + 1 :=
    ⟨history.length - SLOT_WINDOW, by omega⟩
  -- The latest slots start after the first one, the window with it.
  rw [hk, List.drop_succ_cons] at heq
  have hmem := List.mem_of_mem_drop (heq ▸ List.mem_cons_self)
  have hproof := List.mem_map_of_mem (f := SlotDetails.proof) hmem
  rw [map_proof_details] at hproof
  obtain ⟨info, hinfo, hsame⟩ := List.mem_map.mp hproof
  exact proof_notMem_of_recorded hhistory info hinfo hsame

/-! ### The average -/

/-- The window has the last `600` recorded slots, with consecutive numbers. When the
last event extended the chain, an average alert was sent if and only if `600` slots are
recorded and the mean of the last ones is above the threshold. -/
structure RecentAverage (config : SlotsConfig) (start₀ : Instant) (events : List SlotEvent)
    (m : SlotMonitor) : Prop where
  window : m.slots.elems = latestSlots (details start₀ (recorded events))
  consecutive : (m.slots.elems.map fun x => x.proof.slot.toNat).IsChain (fun a b => b = a + 1)
  alerts : ∀ before info m₀, events = before ++ [.recv (.ok info)] →
    run (SlotMonitor.step config) (SlotMonitor.init start₀) before = some m₀ →
    recorded before ≠ [] → recorded events = recorded before ++ [info] →
    ((∃ alert, .avgSlowSlots alert ∈ m.alerts.drop m₀.alerts.length) ↔
      SLOT_WINDOW ≤ (recorded events).length ∧ config.avgSlotThreshold <
        totalDuration (latestSlots (details start₀ (recorded events))) / SLOT_WINDOW)

namespace SlotMonitor

variable {config : SlotsConfig} {m m' : SlotMonitor} {start₀ : Instant}

/-- A recovery is no alert about the average. -/
theorem avgSlowSlots_notMem_recoveryAlerts (proof : GossipProof) (fired : Option Nat)
    (alert : AvgSlowSlot) : Alert.avgSlowSlots alert ∉ recoveryAlerts proof fired := by
  cases fired <;> simp [recoveryAlerts]

/-- A slow slot is no alert about the average. -/
theorem avgSlowSlots_notMem_slowSlotAlerts (last : SlotDetails) (proof : GossipProof)
    (duration : Nat) (alert : AvgSlowSlot) :
    Alert.avgSlowSlots alert ∉ slowSlotAlerts config last proof duration := by
  unfold slowSlotAlerts
  split <;> simp

/-- The average is alerted about exactly when the window is full and the average is
above the threshold. -/
theorem exists_avgSlowSlotAlerts_iff {slots : BoundedVec SlotDetails SLOT_WINDOW}
    {proof : GossipProof} {avg : Nat} :
    (∃ alert, Alert.avgSlowSlots alert ∈ avgSlowSlotAlerts config slots proof avg) ↔
      SLOT_WINDOW ≤ slots.elems.length ∧ config.avgSlotThreshold < avg := by
  unfold avgSlowSlotAlerts BoundedVec.isFull BoundedVec.len
  split
  · rename_i h
    simpa using h
  · rename_i h
    simpa using h

/-- The average alert of an extension that goes on. -/
theorem exists_avgSlowSlots_extend_iff {last : SlotDetails} {info : PoTInfo}
    (hrunning : (m.extend config last info (info.receivedAt.durationSince m.lastInstant)).status =
      .running) :
    (∃ alert, Alert.avgSlowSlots alert ∈
      (m.extend config last info (info.receivedAt.durationSince m.lastInstant)).alerts.drop
        m.alerts.length) ↔
      SLOT_WINDOW ≤ (m.pushed info).elems.length ∧ config.avgSlotThreshold <
        totalDuration (m.pushed info).elems / (m.pushed info).elems.length := by
  rw [extend_eq (totalDuration_pushed_le_of_extend hrunning), List.append_assoc, List.append_assoc,
    List.drop_left, ← exists_avgSlowSlotAlerts_iff]
  simp only [List.mem_append, avgSlowSlots_notMem_recoveryAlerts,
    avgSlowSlots_notMem_slowSlotAlerts, false_or]
  rfl

/-- A round that records a proof after the first one is an extension. The last slot is
there, and the proof is for the one after it. -/
theorem Round.extends_of_recorded {before : List SlotEvent} {info : PoTInfo}
    (hrecords : Records start₀ (recorded before) m) (hround : Round config m (.recv (.ok info)) m')
    (hne : recorded before ≠ [])
    (htaken : recorded (before ++ [.recv (.ok info)]) = recorded before ++ [info]) :
    ∃ last, m.slots.last? = some last ∧
      m' = m.extend config last info (info.receivedAt.durationSince m.lastInstant) := by
  -- The recorded proofs are a chain, so `info` follows the one before it.
  have hnext : ∀ last ∈ (recorded before).getLast?, NextSlot last info := by
    have hchain := isChain_recorded (before ++ [.recv (.ok info)])
    rw [htaken, List.isChain_append] at hchain
    exact fun last hlast => hchain.2.2 last hlast info rfl
  cases hround with
  | first _ hlast =>
      exact absurd (List.getLast?_eq_none_iff.mp (hrecords.last?_eq_none_iff.mp hlast)) hne
  | «extends» _ last hlast _ => exact ⟨last, hlast, rfl⟩
  | rejects _ last hlast hother _ =>
      obtain ⟨proof, hproof, hsame⟩ := hrecords.exists_last hlast
      have h := hnext proof hproof
      rw [NextSlot, hsame] at h
      exact absurd h hother
  | overflows _ last hlast hmax =>
      obtain ⟨proof, hproof, hsame⟩ := hrecords.exists_last hlast
      have h := hnext proof hproof
      have hlt := info.proof.slot.toNat_lt
      rw [NextSlot, hsame] at h
      omega

/-- Until the window is full, it has all recorded slots. -/
theorem Records.elems_eq {history : List PoTInfo} (h : Records start₀ history m)
    (hlength : history.length ≤ SLOT_WINDOW) : m.slots.elems = details start₀ history := by
  rw [h.slots, BoundedVec.kept_eq_self (by rw [length_details]; exact hlength)]

end SlotMonitor

/-- The average is taken over the most recent `600` slots as long as no more than `600`
are recorded, and never again after that. -/
theorem slotWindow_recent_iff (config : SlotsConfig) (start₀ : Instant) (events : List SlotEvent)
    (m : SlotMonitor)
    (hrun : run (SlotMonitor.step config) (SlotMonitor.init start₀) events = some m)
    (hrunning : m.status = .running) :
    RecentAverage config start₀ events m ↔ (recorded events).length ≤ SLOT_WINDOW := by
  have hrecords := SlotMonitor.run_records config start₀ events m hrun
  constructor
  · intro h
    -- With more than `600` slots the window alone is wrong.
    by_contra hlong
    have hwindow := h.window
    rw [hrecords.slots] at hwindow
    exact kept_ne_latestSlots (Nat.lt_of_not_le hlong) hwindow
  · intro hlength
    have helems := hrecords.elems_eq hlength
    have hlatest : latestSlots (details start₀ (recorded events)) =
        details start₀ (recorded events) :=
      latestSlots_of_length_le (by rw [length_details]; exact hlength)
    refine ⟨by rw [helems, hlatest], ?_, ?_⟩
    · rw [helems, map_slot_details]
      exact (List.isChain_map _).mpr (isChain_recorded events)
    · rintro before info m₀ rfl hbefore hne htaken
      -- The state before the last round is the one of the run of `before`.
      obtain ⟨m₁, hrun₁, hlast⟩ := run_append_eq_some.mp hrun
      rw [hbefore] at hrun₁
      cases hrun₁
      rw [run_singleton] at hlast
      have hrecords₀ := SlotMonitor.run_records config start₀ before m₀ hbefore
      obtain ⟨last, -, rfl⟩ :=
        (SlotMonitor.step_round hlast).2.extends_of_recorded hrecords₀ hne htaken
      have hpushed : (m₀.pushed info).elems =
          details start₀ (recorded (before ++ [.recv (.ok info)])) := by
        rw [← helems, SlotMonitor.slots_extend]
        rfl
      rw [SlotMonitor.exists_avgSlowSlots_extend_iff hrunning, hpushed, hlatest, length_details]
      -- A full window has exactly `600` slots.
      refine and_congr_right fun hfull => ?_
      rw [Nat.le_antisymm hlength hfull]

/-- Two proofs fit into the window, so it holds the latest of them and the average is theirs. -/
theorem slotWindow_recent_iff_two :
    ∃ m, run (SlotMonitor.step .default) (SlotMonitor.init (.ofSecs 0)) [gossip 1 5, gossip 2 6] =
        some m ∧ RecentAverage .default (.ofSecs 0) [gossip 1 5, gossip 2 6] m :=
  ⟨_, rfl, (slotWindow_recent_iff .default (.ofSecs 0) [gossip 1 5, gossip 2 6] _ rfl rfl).mpr
    (by decide)⟩

/-- The slots `0` to `count - 1`, one a second. -/
def steadySlots (count : Nat) : List SlotEvent :=
  (List.range count).map fun i => gossip (.ofNat i) (.ofNat i)

/-- The steady slots are received in the order of their times. The bound keeps the
seconds below `2 ^ 64`, where they would wrap around. -/
theorem inOrder_steadySlots {count : Nat} (hcount : count < 2 ^ 64) :
    InOrder (messages (steadySlots count)) := by
  rw [messages, steadySlots, List.filterMap_map, InOrder, List.pairwise_filterMap]
  refine List.pairwise_lt_range.imp_of_mem ?_
  rintro i j hi hj hij a ⟨⟩ b ⟨⟩
  have hi' := List.mem_range.mp hi
  have hj' := List.mem_range.mp hj
  simp only [potInfo, Instant.ofSecs, UInt64.toNat_ofNat']
  rw [Nat.mod_eq_of_lt (by omega), Nat.mod_eq_of_lt (by omega)]
  omega

/-- After `601` slots the window has not dropped the first one. It has dropped the slot
before the last instead, so it is not the latest `600` slots. -/
theorem slotWindow_keeps_first_slot :
    ∃ m, run (SlotMonitor.step .default) (SlotMonitor.init (.ofSecs 0)) (steadySlots 601) = some m ∧
      m.status = .running ∧ ¬ RecentAverage .default (.ofSecs 0) (steadySlots 601) m := by
  obtain ⟨m, hrun, hrunning⟩ := exists_run_of_alwaysHasNext .default (.ofSecs 0) (steadySlots 601)
    (by simp [steadySlots, gossip]) (inOrder_steadySlots (by decide))
    (alwaysHasNext_of_messages (by decide +kernel))
  refine ⟨m, hrun, hrunning, fun h => ?_⟩
  have hlength : SLOT_WINDOW < (recorded (steadySlots 601)).length := by decide +kernel
  have hwindow := h.window
  rw [(SlotMonitor.run_records _ _ _ m hrun).slots] at hwindow
  exact kept_ne_latestSlots hlength hwindow

/-! ### The times between two slots -/

/-- The proof was accepted `duration` after the one for the slot before it. -/
def RealInterval (history : List PoTInfo) (proof : GossipProof) (duration : Nat) : Prop :=
  ∃ before previous info after, history = before ++ previous :: info :: after ∧
    info.proof = proof ∧ duration = info.receivedAt.durationSince previous.receivedAt

/-- A time between two recorded proofs stays one when more proofs are recorded after them. -/
theorem RealInterval.append {history : List PoTInfo} {proof : GossipProof} {duration : Nat}
    (h : RealInterval history proof duration) (later : List PoTInfo) :
    RealInterval (history ++ later) proof duration := by
  obtain ⟨before, previous, info, after, rfl, hproof, hduration⟩ := h
  exact ⟨before, previous, info, after ++ later, by simp, hproof, hduration⟩

/-- A time between two recorded proofs stays one behind a proof that came before them. -/
theorem RealInterval.cons {history : List PoTInfo} {proof : GossipProof} {duration : Nat}
    (h : RealInterval history proof duration) (first : PoTInfo) :
    RealInterval (first :: history) proof duration := by
  obtain ⟨before, previous, info, after, rfl, hproof, hduration⟩ := h
  exact ⟨first :: before, previous, info, after, rfl, hproof, hduration⟩

/-- All details but those of the first proof are times between two slots. -/
theorem realInterval_of_mem_details {first : PoTInfo} {history : List PoTInfo} {x : SlotDetails}
    (h : x ∈ details first.receivedAt history) :
    RealInterval (first :: history) x.proof x.duration := by
  induction history generalizing first with
  | nil => cases h
  | cons second history ih =>
      rw [details, List.mem_cons] at h
      rcases h with rfl | h
      · exact ⟨[], first, second, history, rfl, rfl, rfl⟩
      · exact (ih h).cons first

/-- Every slot time that the monitor keeps or has reported is a time between two slots. -/
structure RealTimes (history : List PoTInfo) (m : SlotMonitor) : Prop where
  window : ∀ x ∈ m.slots.elems, RealInterval history x.proof x.duration
  slowSlots : ∀ alert, .slowSlot alert ∈ m.alerts →
    ∃ proof, proof.slot.toNat = alert.slot ∧ RealInterval history proof alert.slotTime
  avgSlowSlots : ∀ alert, .avgSlowSlots alert ∈ m.alerts →
    ∃ slots : List SlotDetails, slots.length = alert.slotCount ∧
      (∀ x ∈ slots, RealInterval history x.proof x.duration) ∧
      alert.avgSlotTime = totalDuration slots / alert.slotCount

namespace SlotMonitor

variable {config : SlotsConfig} {m m' : SlotMonitor} {e : SlotEvent} {start₀ : Instant}

/-- The alerts of an extension, whether it goes on or panics. An alert about the average
only comes when the average was computed. -/
theorem mem_alerts_extend {last : SlotDetails} {info : PoTInfo} {duration : Nat} {alert : Alert}
    (h : alert ∈ (m.extend config last info duration).alerts) :
    alert ∈ m.alerts ∨ alert ∈ recoveryAlerts info.proof m.timeoutFired ∨
      alert ∈ slowSlotAlerts config last info.proof duration ∨
      ∃ slots avg, alert ∈ avgSlowSlotAlerts config slots info.proof avg := by
  rw [extend] at h
  split at h
  · simp only [panic, List.mem_append] at h
    rcases h with (h | h) | h
    · exact Or.inl h
    · exact Or.inr (Or.inl h)
    · exact Or.inr (Or.inr (Or.inl h))
  · simp only [List.mem_append] at h
    rcases h with ((h | h) | h) | h
    · exact Or.inl h
    · exact Or.inr (Or.inl h)
    · exact Or.inr (Or.inr (Or.inl h))
    · exact Or.inr (Or.inr (Or.inr ⟨_, _, h⟩))

/-- A recovery is no slow slot alert. -/
theorem slowSlot_notMem_recoveryAlerts (proof : GossipProof) (fired : Option Nat)
    (alert : SlowSlot) : Alert.slowSlot alert ∉ recoveryAlerts proof fired := by
  cases fired <;> simp [recoveryAlerts]

/-- An alert about the average is no slow slot alert. -/
theorem slowSlot_notMem_avgSlowSlotAlerts (slots : BoundedVec SlotDetails SLOT_WINDOW)
    (proof : GossipProof) (avg : Nat) (alert : SlowSlot) :
    Alert.slowSlot alert ∉ avgSlowSlotAlerts config slots proof avg := by
  unfold avgSlowSlotAlerts
  split <;> simp

/-- What the alerts about slot times report. -/
structure Reports (history : List PoTInfo) (m : SlotMonitor) : Prop where
  slowSlots : ∀ alert, .slowSlot alert ∈ m.alerts →
    ∃ proof, proof.slot.toNat = alert.slot ∧ RealInterval history proof alert.slotTime
  avgSlowSlots : ∀ alert, .avgSlowSlots alert ∈ m.alerts → history ≠ []

/-- What has been reported stays true of a longer history, when the new alerts are
neither slow slots nor averages. All rounds but an extension are of this kind. -/
theorem Reports.append {history : List PoTInfo} (h : Reports history m) (later : List PoTInfo)
    (halerts : ∀ alert ∈ m'.alerts, alert ∈ m.alerts ∨
      (∀ slow, alert ≠ .slowSlot slow) ∧ ∀ avg, alert ≠ .avgSlowSlots avg) :
    Reports (history ++ later) m' := by
  refine ⟨fun alert halert => ?_, fun alert halert => ?_⟩
  · obtain ⟨proof, hproof, hreal⟩ :=
      h.slowSlots alert ((halerts _ halert).resolve_right fun hother => hother.1 alert rfl)
    exact ⟨proof, hproof, hreal.append later⟩
  · have hne := h.avgSlowSlots alert ((halerts _ halert).resolve_right fun hother =>
      hother.2 alert rfl)
    exact List.append_ne_nil_of_left_ne_nil hne later

/-- An extension reports the time since the last recorded proof. -/
theorem Reports.extend {history : List PoTInfo} (hrecords : Records start₀ history m)
    (h : Reports history m) {last : SlotDetails} (hlast : m.slots.last? = some last)
    (info : PoTInfo) :
    Reports (history ++ [info])
      (m.extend config last info (info.receivedAt.durationSince m.lastInstant)) := by
  obtain ⟨previous, hprevious, -⟩ := hrecords.exists_last hlast
  obtain ⟨before, hbefore⟩ : ∃ before, history = before ++ [previous] :=
    (List.getLast?_eq_some_iff.mp hprevious)
  have hinstant : m.lastInstant = previous.receivedAt := by
    rw [hrecords.lastInstant, hbefore, lastReceived_append_singleton]
  refine ⟨fun alert halert => ?_, fun alert _ => by simp⟩
  rcases mem_alerts_extend halert with hold | hrecovery | hslow | ⟨slots, avg, havg⟩
  · obtain ⟨proof, hproof, hreal⟩ := h.slowSlots alert hold
    exact ⟨proof, hproof, hreal.append _⟩
  · exact absurd hrecovery (slowSlot_notMem_recoveryAlerts _ _ _)
  · -- The alert is about `info`, and `last_instant` is when the proof before it was received.
    unfold slowSlotAlerts at hslow
    split at hslow
    · cases List.mem_singleton.mp hslow
      exact ⟨info.proof, rfl, before, previous, info, [], by rw [hbefore]; simp, rfl,
        by rw [hinstant]⟩
    · cases hslow
  · exact absurd havg (slowSlot_notMem_avgSlowSlotAlerts _ _ _ _)

/-- A round reports times between two recorded proofs only. This is the step of the
invariant, and the extension is its one case with something to show. -/
theorem Round.reports {history : List PoTInfo} (hrecords : Records start₀ history m)
    (h : Reports history m) (hround : Round config m e m') :
    Reports (history ++ greedy NextSlot history.getLast? e.message.toList) m' := by
  cases hround with
  | first info hlast => exact h.append _ fun alert halert => Or.inl halert
  | «extends» info last hlast hnext =>
      have htakes := (hrecords.takes_iff hlast info).mpr hnext
      change Reports (history ++ greedy NextSlot history.getLast? [info]) _
      rw [greedy_cons_of_takes htakes]
      exact h.extend hrecords hlast info
  | rejects info last hlast hnext hmax => exact h.append _ fun alert halert => Or.inl halert
  | overflows info last hlast hmax => exact h.append _ fun alert halert => Or.inl halert
  | closed err => exact h.append _ fun alert halert => Or.inl halert
  | elapsed =>
      refine h.append _ fun alert halert => ?_
      -- A timeout sends at most a stall alert, which reports no slot time.
      simp only [timeout, List.mem_append] at halert
      refine halert.imp_right fun hstall => ?_
      split at hstall
      · rw [List.mem_singleton.mp hstall]
        exact ⟨by simp, by simp⟩
      · cases hstall

/-- The slow slot alerts of every run report times between two slots. -/
theorem run_reports (config : SlotsConfig) (start₀ : Instant) :
    ∀ (events : List SlotEvent) (m : SlotMonitor),
      run (step config) (init start₀) events = some m → Reports (recorded events) m := by
  refine run_history ⟨by simp [init], by simp [init]⟩ fun events m e m' hrun hreports hstep => ?_
  rw [recorded_append_singleton]
  exact (step_round hstep).2.reports (run_records config start₀ events m hrun) hreports

end SlotMonitor

/-- Nothing is recorded exactly when no proof was received, as the first proof is
always taken. -/
theorem recorded_eq_nil_iff {events : List SlotEvent} :
    recorded events = [] ↔ messages events = [] := by
  cases h : messages events with
  | nil => simp [recorded, h]
  | cons first rest => simp [recorded, h, greedy_cons_of_takes (takes_none NextSlot first)]

/-- The recorded slot times are times between two slots, except for the first one. In
every run, all times that the monitor keeps or has reported are of this kind if and only
if no proof was received. Otherwise the first entry of the window, which every average
counts, is the time from the start to the first proof. All other entries and all slow
slot alerts are as they should be. -/
theorem slotTimes_real_iff (config : SlotsConfig) (start₀ : Instant) (events : List SlotEvent)
    (m : SlotMonitor)
    (hrun : run (SlotMonitor.step config) (SlotMonitor.init start₀) events = some m) :
    (RealTimes (recorded events) m ↔ messages events = []) ∧
    (∀ first history, recorded events = first :: history → m.slots.elems.head? =
      some { proof := first.proof, duration := first.receivedAt.durationSince start₀ }) ∧
    (∀ x ∈ m.slots.elems.tail, RealInterval (recorded events) x.proof x.duration) ∧
    ∀ alert, .slowSlot alert ∈ m.alerts →
      ∃ proof, proof.slot.toNat = alert.slot ∧ RealInterval (recorded events) proof alert.slotTime := by
  have hrecords := SlotMonitor.run_records config start₀ events m hrun
  have hreports := SlotMonitor.run_reports config start₀ events m hrun
  have hwindow : ∀ first history, recorded events = first :: history → m.slots.elems =
      { proof := first.proof, duration := first.receivedAt.durationSince start₀ } ::
        BoundedVec.kept (SLOT_WINDOW - 1) (details first.receivedAt history) := by
    intro first history hhistory
    rw [hrecords.slots, hhistory, details, SLOT_WINDOW, BoundedVec.kept_cons]
  refine ⟨⟨fun h => ?_, fun h => ?_⟩, fun first history hhistory => ?_, ?_, hreports.slowSlots⟩
  · by_contra hmessages
    obtain ⟨first, history, hhistory⟩ :=
      List.exists_cons_of_ne_nil (mt recorded_eq_nil_iff.mp hmessages)
    -- The first slot has no accepted slot before it.
    obtain ⟨before, previous, info, after, hsplit, hproof, -⟩ :=
      h.window _ (hwindow first history hhistory ▸ List.mem_cons_self)
    have hlater : info ∈ history := by
      rw [hhistory] at hsplit
      cases before with
      | nil =>
          rw [(List.cons.inj hsplit).2]
          exact List.mem_cons_self
      | cons _ before =>
          rw [(List.cons.inj hsplit).2]
          simp
    exact proof_notMem_of_recorded hhistory info hlater hproof
  · have hnil := recorded_eq_nil_iff.mpr h
    refine ⟨fun x hx => ?_, hreports.slowSlots, fun alert halert => ?_⟩
    · rw [hrecords.slots, hnil] at hx
      simp [details] at hx
    · exact absurd hnil (hreports.avgSlowSlots alert halert)
  · rw [hwindow first history hhistory]
    rfl
  · intro x hx
    cases hhistory : recorded events with
    | nil =>
        rw [hrecords.slots, hhistory] at hx
        simp [details] at hx
    | cons first history =>
        rw [hwindow first history hhistory, List.tail_cons] at hx
        exact realInterval_of_mem_details ((BoundedVec.kept_sublist _ _).subset hx)

/-- Two proofs that arrive a second apart, `100` seconds after the start: behind the
first entry, all times of the window are times between two slots. -/
theorem slotTimes_real_iff_two :
    ∃ m, run (SlotMonitor.step .default) (SlotMonitor.init (.ofSecs 0))
        [gossip 100 5, gossip 101 6] = some m ∧
      ∀ x ∈ m.slots.elems.tail,
        RealInterval (recorded [gossip 100 5, gossip 101 6]) x.proof x.duration :=
  ⟨_, rfl, (slotTimes_real_iff .default (.ofSecs 0) [gossip 100 5, gossip 101 6] _ rfl).2.2.1⟩

/-- The monitor waits `100` seconds for its first proof, and takes them for a slot time,
although no slot came before this one. -/
theorem slotTimes_count_start :
    ∃ m, run (SlotMonitor.step .default) (SlotMonitor.init (.ofSecs 0)) [gossip 100 5] = some m ∧
      m.slots.elems = [{ proof := { slot := 5 }, duration := Duration.fromSecs 100 }] ∧
      ¬ RealTimes (recorded [gossip 100 5]) m := by
  refine ⟨_, rfl, rfl, fun h => ?_⟩
  obtain ⟨before, previous, info, after, hsplit, -⟩ := h.window _ List.mem_cons_self
  have hlength := congrArg List.length hsplit
  have hone : (recorded [gossip 100 5]).length = 1 := rfl
  rw [hone, List.length_append, List.length_cons, List.length_cons] at hlength
  omega

end ChainAlerter
