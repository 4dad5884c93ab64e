import ChainAlerter.Proofs.SlotHistory

/-!
# `ChainAlerter.Proofs.SlotPanics`: what can panic in the slot monitor

A round of the monitor has three operations that can panic. The division is safe,
because the window holds the slot just pushed. The sum is safe as long as the
proofs were received in order: the durations in the window are then distances
between instants that do not overlap, and all of them fit between two instants.
The increment of the last slot is not safe. The slot of the first proof is
whatever a peer sent, and nothing follows `u64::MAX`.
-/

set_option autoImplicit false

namespace ChainAlerter

open ChainAlerter.Library

/-! ### The sum of the durations -/

/-- The sum of the durations of some slots. -/
def totalDuration (slots : List SlotDetails) : Nat := (slots.map SlotDetails.duration).sum

/-- The total duration, entry by entry. -/
@[simp] theorem totalDuration_cons (x : SlotDetails) (slots : List SlotDetails) :
    totalDuration (x :: slots) = x.duration + totalDuration slots := rfl

/-- The sum that stops at an overflow is the sum, when it does not overflow. The entries
are not negative, so it overflows in the end if it does on the way. -/
theorem foldlM_add (slots : List SlotDetails) {acc : Nat} (hacc : acc ≤ Duration.MAX) :
    slots.foldlM (fun acc x => Duration.add acc x.duration) acc =
      if acc + totalDuration slots ≤ Duration.MAX then some (acc + totalDuration slots)
      else none := by
  induction slots generalizing acc with
  | nil => exact (if_pos hacc).symm
  | cons x slots ih =>
      rw [List.foldlM_cons, Duration.add, totalDuration_cons, ← Nat.add_assoc]
      by_cases hfits : acc + x.duration ≤ Duration.MAX
      · rw [if_pos hfits]
        exact ih hfits
      · -- The rest only adds to a sum that has overflowed.
        rw [if_neg hfits, if_neg (by omega)]
        rfl

/-- The average of a window that is not empty is its total by its length, and
it is missing exactly when the total is no `Duration`. The division itself
cannot fail then. -/
theorem avgSlotTime_eq {slots : BoundedVec SlotDetails SLOT_WINDOW} (hne : slots.elems ≠ []) :
    SlotMonitor.avgSlotTime slots =
      if totalDuration slots.elems ≤ Duration.MAX then
        some (totalDuration slots.elems / slots.len) else none := by
  -- The window is not empty, so the division does not panic.
  have hlen : slots.len ≠ 0 := fun h => hne (List.length_eq_zero_iff.mp h)
  rw [SlotMonitor.avgSlotTime, foldlM_add _ (Nat.zero_le _), Nat.zero_add]
  split
  · exact if_neg hlen
  · rfl

/-- A part of the entries takes no longer than all of them, so the window is bounded by
the whole history. -/
theorem totalDuration_le_of_sublist {slots slots' : List SlotDetails} (h : slots.Sublist slots') :
    totalDuration slots ≤ totalDuration slots' :=
  (h.map SlotDetails.duration).sum_le_sum fun _ _ => Nat.zero_le _

/-- The proofs were received in order. -/
def InOrder (infos : List PoTInfo) : Prop :=
  infos.Pairwise (fun a b => a.receivedAt.nanos ≤ b.receivedAt.nanos)

instance (infos : List PoTInfo) : Decidable (InOrder infos) :=
  inferInstanceAs (Decidable (infos.Pairwise _))

/-- From an instant before all proofs, the durations add up to the time until the last
one. The times between neighbours telescope, as the proofs are in order. -/
theorem totalDuration_add {start : Instant} {history : List PoTInfo}
    (hstart : ∀ info ∈ history, start.nanos ≤ info.receivedAt.nanos) (horder : InOrder history) :
    totalDuration (details start history) + start.nanos = (lastReceived start history).nanos := by
  induction history generalizing start with
  | nil => simp [details, totalDuration]
  | cons first history ih =>
      obtain ⟨hfirst, hrest⟩ := List.pairwise_cons.mp horder
      -- Each duration ends where the next one starts, so they telescope.
      have hlast : lastReceived start (first :: history) = lastReceived first.receivedAt history := by
        rw [lastReceived, lastReceived, List.getLast?_cons]
        cases history.getLast? <;> rfl
      have hstart' := hstart first List.mem_cons_self
      have hsum := ih hfirst hrest
      rw [hlast, ← hsum, details, totalDuration_cons]
      simp only [Instant.durationSince]
      omega

/-- The durations of proofs received in order never overflow, even when the first proof
was received before the start. -/
theorem totalDuration_le_max {start : Instant} {history : List PoTInfo} (horder : InOrder history) :
    totalDuration (details start history) ≤ Duration.MAX := by
  cases history with
  | nil => exact Nat.zero_le _
  | cons first history =>
      obtain ⟨hfirst, hrest⟩ := List.pairwise_cons.mp horder
      have hsum := totalDuration_add hfirst hrest
      have hlast := (lastReceived first.receivedAt history).nanos_lt
      -- The first duration may have saturated at zero. The others telescope from the first proof.
      rw [details, totalDuration_cons, Duration.MAX]
      simp only [Instant.durationSince]
      omega

/-! ### The rounds that do not panic -/

namespace SlotMonitor

variable {config : SlotsConfig} {m m' : SlotMonitor} {start₀ : Instant}

/-- The window after a push. -/
def pushed (m : SlotMonitor) (info : PoTInfo) : BoundedVec SlotDetails SLOT_WINDOW :=
  m.slots.forcePush
    { proof := info.proof, duration := info.receivedAt.durationSince m.lastInstant }

/-- After a push the window is not empty, so the average divides by a positive length. -/
theorem elems_pushed_ne_nil (info : PoTInfo) : (m.pushed info).elems ≠ [] := by
  rw [pushed, BoundedVec.elems_forcePush (by decide)]
  simp

/-- The window after a push does not overflow, when the proofs were received in order.
Its entries are among those of the whole history, whose sum is at most an instant. -/
theorem totalDuration_pushed_le {history : List PoTInfo} (hrecords : Records start₀ history m)
    {info : PoTInfo} (horder : InOrder (history ++ [info])) :
    totalDuration (m.pushed info).elems ≤ Duration.MAX := by
  have hpush : Records start₀ (history ++ [info]) (m.start info) := hrecords.push info rfl rfl
  -- The window is part of the details of all recorded proofs, and these fit.
  have helems : (m.pushed info).elems =
      BoundedVec.kept SLOT_WINDOW (details start₀ (history ++ [info])) := hpush.slots
  rw [helems]
  exact (totalDuration_le_of_sublist (BoundedVec.kept_sublist _ _)).trans
    (totalDuration_le_max horder)

/-- An extension whose window does not overflow sends its alerts and goes on. The
average is there then, so its `expect` is not reached. -/
theorem extend_eq {last : SlotDetails} {info : PoTInfo}
    (hfits : totalDuration (m.pushed info).elems ≤ Duration.MAX) :
    m.extend config last info (info.receivedAt.durationSince m.lastInstant) =
      { m with
        timeoutFired := none
        lastInstant := info.receivedAt
        slots := m.pushed info
        alerts := m.alerts ++ recoveryAlerts info.proof m.timeoutFired
          ++ slowSlotAlerts config last info.proof (info.receivedAt.durationSince m.lastInstant)
          ++ avgSlowSlotAlerts config (m.pushed info) info.proof
            (totalDuration (m.pushed info).elems / (m.pushed info).len) } := by
  have havg := avgSlotTime_eq (elems_pushed_ne_nil (m := m) info)
  rw [if_pos hfits, pushed] at havg
  rw [extend, havg]
  rfl

/-- An extension that goes on has a window that does not overflow. -/
theorem totalDuration_pushed_le_of_extend {last : SlotDetails} {info : PoTInfo}
    (h : (m.extend config last info (info.receivedAt.durationSince m.lastInstant)).status =
      .running) : totalDuration (m.pushed info).elems ≤ Duration.MAX := by
  by_contra hfits
  have havg := avgSlotTime_eq (elems_pushed_ne_nil (m := m) info)
  rw [if_neg hfits, pushed] at havg
  rw [extend, havg] at h
  cases h

/-- The slot after the last recorded one is a `u64`. -/
def HasNext (history : List PoTInfo) : Prop :=
  ∀ last ∈ history.getLast?, last.proof.slot.toNat + 1 ≠ 2 ^ 64

/-- A round on a proof goes on exactly when the last slot has a successor. The other
places where the source could panic are excluded by the order of the proofs. -/
theorem Round.running_iff {history : List PoTInfo} {info : PoTInfo}
    (hrecords : Records start₀ history m) (horder : InOrder (history ++ [info]))
    (hrunning : m.status = .running) (hround : Round config m (.recv (.ok info)) m') :
    m'.status = .running ↔ HasNext history := by
  have hfits := totalDuration_pushed_le hrecords horder
  cases hround with
  | first _ hlast =>
      have hnone := hrecords.last?_eq_none_iff.mp hlast
      exact iff_of_true hrunning (by rw [HasNext, hnone]; simp)
  | «extends» _ last hlast hnext =>
      obtain ⟨before, hbefore, hproof⟩ := hrecords.exists_last hlast
      rw [extend_eq hfits]
      refine iff_of_true hrunning ?_
      rw [HasNext, hbefore]
      rintro _ ⟨⟩
      -- The proof that follows the last slot is a `u64` itself.
      have hlt := info.proof.slot.toNat_lt
      rw [hproof]
      omega
  | rejects _ last hlast hnext hmax =>
      obtain ⟨before, hbefore, hproof⟩ := hrecords.exists_last hlast
      refine iff_of_true hrunning ?_
      rw [HasNext, hbefore]
      rintro _ ⟨⟩
      rw [hproof]
      exact hmax
  | overflows _ last hlast hmax =>
      obtain ⟨before, hbefore, hproof⟩ := hrecords.exists_last hlast
      refine iff_of_false (fun h => by cases h) fun h => h before hbefore ?_
      rw [hproof]
      exact hmax

/-- Proofs that are received in order are recorded in order, with the one that
arrives after them. -/
theorem inOrder_recorded {events : List SlotEvent} {info : PoTInfo}
    (horder : InOrder (messages (events ++ [.recv (.ok info)]))) :
    InOrder (recorded events ++ [info]) := by
  rw [messages_append_singleton] at horder
  -- The recorded proofs are among the received ones, in their order.
  exact horder.sublist ((greedy_sublist none (messages events)).append_right _)

end SlotMonitor

/-- Every proof that arrives meets a last slot with a successor. -/
def AlwaysHasNext (events : List SlotEvent) : Prop :=
  ∀ before e after, events = before ++ e :: after →
    ∀ info, e = .recv (.ok info) → SlotMonitor.HasNext (recorded before)

/-- An event more: the earlier proofs met a last slot with a successor, and so does the
one that this event brings. -/
theorem alwaysHasNext_append_singleton {events : List SlotEvent} {e : SlotEvent} :
    AlwaysHasNext (events ++ [e]) ↔
      AlwaysHasNext events ∧ ∀ info, e = .recv (.ok info) → SlotMonitor.HasNext (recorded events) :=
  forall_split_append_singleton

/-- The events before the last one are received in order too. -/
theorem InOrder.of_messages_append {events : List SlotEvent} {e : SlotEvent}
    (horder : InOrder (messages (events ++ [e]))) : InOrder (messages events) := by
  rw [messages_append_singleton] at horder
  exact horder.sublist (List.sublist_append_left _ _)

/-- Proofs received in order, each after a slot with a successor, all go through. By
induction from the end, since what is recorded so far decides about the next round. -/
theorem exists_run_of_alwaysHasNext (config : SlotsConfig) (start₀ : Instant)
    (events : List SlotEvent) (hgossip : ∀ err, .recv (.error err) ∉ events)
    (horder : InOrder (messages events)) (hnext : AlwaysHasNext events) :
    ∃ m, run (SlotMonitor.step config) (SlotMonitor.init start₀) events = some m ∧
      m.status = .running := by
  -- On the last event, because whether its round goes on depends on what was recorded before.
  induction events using List.reverseRecOn with
  | nil => exact ⟨_, rfl, rfl⟩
  | append_singleton events e ih =>
      obtain ⟨hbefore, he⟩ := alwaysHasNext_append_singleton.mp hnext
      obtain ⟨m, hrun, hrunning⟩ := ih (fun err h => hgossip err (List.mem_append_left _ h))
        horder.of_messages_append hbefore
      obtain ⟨m', hstep⟩ := SlotMonitor.exists_step config e hrunning
      refine ⟨m', run_append_eq_some.mpr ⟨m, hrun, by rw [run_singleton, hstep]⟩, ?_⟩
      have hround := (SlotMonitor.step_round hstep).2
      cases e with
      | recv result =>
          cases result with
          | ok info =>
              have hrecords := SlotMonitor.run_records config start₀ events m hrun
              exact (hround.running_iff hrecords (SlotMonitor.inOrder_recorded horder)
                hrunning).mpr (he info rfl)
          | error err => exact absurd (List.mem_append_right _ List.mem_cons_self) (hgossip err)
      | elapsed =>
          cases hround
          exact hrunning

/-- A proof after a slot without a successor ends the monitor, so in a run that goes on
there was none. -/
theorem alwaysHasNext_of_run (config : SlotsConfig) (start₀ : Instant) (events : List SlotEvent)
    (horder : InOrder (messages events)) {m' : SlotMonitor}
    (hrun : run (SlotMonitor.step config) (SlotMonitor.init start₀) events = some m')
    (hrunning' : m'.status = .running) : AlwaysHasNext events := by
  induction events using List.reverseRecOn generalizing m' with
  | nil =>
      intro before e after h
      simp at h
  | append_singleton events e ih =>
      obtain ⟨m, hbefore, hlast⟩ := run_append_eq_some.mp hrun
      rw [run_singleton] at hlast
      obtain ⟨hrunning, hround⟩ := SlotMonitor.step_round hlast
      refine alwaysHasNext_append_singleton.mpr
        ⟨ih horder.of_messages_append hbefore hrunning, ?_⟩
      -- A panic in the last round contradicts that the monitor still runs.
      rintro info rfl
      have hrecords := SlotMonitor.run_records config start₀ events m hbefore
      exact (hround.running_iff hrecords (SlotMonitor.inOrder_recorded horder) hrunning).mp
        hrunning'

/-- Proofs for slots below `u64::MAX` always meet a slot with a successor. -/
theorem alwaysHasNext_of_messages {events : List SlotEvent}
    (h : ∀ info ∈ messages events, info.proof.slot.toNat + 1 ≠ 2 ^ 64) : AlwaysHasNext events := by
  intro before e after hevents info _ last hlast
  have hmem : last ∈ messages before :=
    (greedy_sublist none (messages before)).subset (List.mem_of_getLast? hlast)
  refine h last ?_
  rw [hevents, messages, List.filterMap_append]
  exact List.mem_append_left _ hmem

/-- No gossip makes the monitor panic, except for a proof that arrives after the slot
`u64::MAX` was recorded. For proofs received in order, with timeouts anywhere between
them, all rounds go through if and only if there is no such proof. -/
theorem slotMonitor_runs_iff (config : SlotsConfig) (start₀ : Instant) (events : List SlotEvent)
    (hgossip : ∀ err, .recv (.error err) ∉ events) (horder : InOrder (messages events)) :
    (∃ m, run (SlotMonitor.step config) (SlotMonitor.init start₀) events = some m ∧
      m.status = .running) ↔ AlwaysHasNext events := by
  constructor
  · rintro ⟨m, hrun, hrunning⟩
    exact alwaysHasNext_of_run config start₀ events horder hrun hrunning
  · exact exists_run_of_alwaysHasNext config start₀ events hgossip horder

/-! ### Two slots at the end of `u64` -/

/-- A monitor goes through `u64::MAX - 1` and `u64::MAX`, with a timeout between them. -/
theorem slotMonitor_runs_iff_max :
    InOrder (messages [gossip 1 18446744073709551614, .elapsed, gossip 32 18446744073709551615]) ∧
    AlwaysHasNext [gossip 1 18446744073709551614, .elapsed, gossip 32 18446744073709551615] :=
  ⟨by decide, (slotMonitor_runs_iff .default (.ofSecs 0) _ (by simp [gossip]) (by decide)).mp
    ⟨_, rfl, rfl⟩⟩

/-- A peer sends `u64::MAX`. The next proof makes the monitor panic. -/
theorem slotMonitor_panics_after_max :
    InOrder (messages [gossip 1 18446744073709551615, gossip 2 7]) ∧
    ∃ m, run (SlotMonitor.step .default) (SlotMonitor.init (.ofSecs 0))
        [gossip 1 18446744073709551615, gossip 2 7] = some m ∧ m.status = .panicked :=
  ⟨by decide, _, rfl, rfl⟩

end ChainAlerter
