import ChainAlerter.Proofs.SlotWindow

/-!
# `ChainAlerter.Proofs.SlotRuns`: duplicates and reordering of slots

Proofs of many peers arrive in any order and any number of times. The monitor looks at
one proof at a time and takes only the next slot. `LongestSlotRun` says what this comes
to over a whole run: the recorded slots are the longest sequence of consecutive slots
that is scattered over the received ones and starts with the first of them, and each is
taken at the earliest place where it can be.

A proof that is not recorded leaves no trace: the run without all such proofs ends in
the same state, with the same alerts (`run_withoutRejected`).
-/

set_option autoImplicit false

namespace ChainAlerter

open ChainAlerter.Library

/-! ### Runs of slots -/

/-- Proofs for consecutive slots, each with its position among the received ones. The
first of them is the first one received. -/
structure SlotRun (infos : List PoTInfo) (taken : List (PoTInfo × Nat)) : Prop where
  subsequence : taken.Sublist infos.zipIdx
  start : taken.head? = infos.zipIdx.head?
  consecutive : (taken.map fun x => x.1.proof.slot.toNat).IsChain fun a b => b = a + 1

/-- No other run of slots is longer, or has one of its slots at an earlier position. -/
structure LongestSlotRun (infos : List PoTInfo) (taken : List (PoTInfo × Nat)) : Prop extends
    SlotRun infos taken where
  longest : ∀ other, SlotRun infos other → other.length ≤ taken.length
  earliest : ∀ other, SlotRun infos other →
    ∀ (i : Nat) (x y : PoTInfo × Nat), taken[i]? = some x → other[i]? = some y → x.2 ≤ y.2

/-- `NextSlot` for proofs with positions. -/
def NextSlotAt (a b : PoTInfo × Nat) : Prop := NextSlot a.1 b.1

instance : DecidableRel NextSlotAt := fun a b => inferInstanceAs (Decidable (NextSlot a.1 b.1))

/-- The slot of the follower is determined, so followers are alike. -/
theorem NextSlotAt.same (a b b' c : PoTInfo × Nat) (hab : NextSlotAt a b) (hab' : NextSlotAt a b')
    (hbc : NextSlotAt b c) : NextSlotAt b' c := by
  unfold NextSlotAt NextSlot at *
  omega

/-- The slots of a list rise by one exactly when it is a chain of `NextSlotAt`, the
relation by which the greedy chain takes its proofs. -/
theorem isChain_slots_iff {taken : List (PoTInfo × Nat)} :
    (taken.map fun x => x.1.proof.slot.toNat).IsChain (fun a b => b = a + 1) ↔
      taken.IsChain NextSlotAt :=
  List.isChain_map _

/-- The positions of a list rise. Greedy chains are the earliest ones for every weight
that does, here the position. -/
theorem pairwise_zipIdx (infos : List PoTInfo) (n : Nat) :
    (infos.zipIdx n).Pairwise fun a b => a.2 ≤ b.2 := by
  induction infos generalizing n with
  | nil => simp
  | cons info infos ih =>
      rw [List.zipIdx_cons, List.pairwise_cons]
      refine ⟨?_, ih (n + 1)⟩
      intro b hb
      have hle := (List.mem_zipIdx hb).1
      show n ≤ b.2
      omega

/-- A run of slots starts with the first proof and goes on after it. -/
theorem SlotRun.cases {info : PoTInfo} {infos : List PoTInfo} {taken : List (PoTInfo × Nat)}
    (h : SlotRun (info :: infos) taken) :
    ∃ rest, taken = (info, 0) :: rest ∧ rest.Sublist (infos.zipIdx 1) ∧
      ((info, 0) :: rest).IsChain NextSlotAt := by
  have hstart := h.start
  cases taken with
  | nil => simp at hstart
  | cons x rest =>
      simp only [List.head?_cons, List.zipIdx_cons, Option.some.injEq] at hstart
      subst hstart
      refine ⟨rest, rfl, ?_, isChain_slots_iff.mp h.consecutive⟩
      have hsublist := h.subsequence
      rw [List.zipIdx_cons] at hsublist
      exact List.cons_sublist_cons.mp hsublist

/-- The greedy chain of the received proofs is the longest run of slots. A run starts
with the first proof and goes on by one slot at a time, so by the library's result the
greedy one is ahead of every other. -/
theorem longestSlotRun_greedy (infos : List PoTInfo) :
    LongestSlotRun infos (greedy NextSlotAt none infos.zipIdx) := by
  cases infos with
  | nil =>
      have hnil : ∀ other, SlotRun [] other → other = [] := by
        intro other h
        exact List.sublist_nil.mp h.subsequence
      refine ⟨⟨List.Sublist.refl _, rfl, by simp⟩, ?_, ?_⟩
      · intro other h
        simp [hnil other h]
      · intro other h i x y hx
        simp at hx
  | cons info infos =>
      have hgreedy : greedy NextSlotAt none ((info :: infos).zipIdx) =
          (info, 0) :: greedy NextSlotAt (some (info, 0)) (infos.zipIdx 1) := by
        rw [List.zipIdx_cons, greedy_cons_of_takes (takes_none _ _)]
      have hahead : ∀ other, SlotRun (info :: infos) other →
          List.Forall₂ (fun x y => x.2 ≤ y.2)
            ((greedy NextSlotAt none ((info :: infos).zipIdx)).take other.length) other := by
        intro other h
        obtain ⟨rest, rfl, hsublist, hchain⟩ := h.cases
        rw [hgreedy, List.length_cons, List.take_succ_cons]
        exact .cons (Nat.le_refl _)
          (forall₂_greedy NextSlotAt.same (pairwise_zipIdx infos 1) hsublist hchain)
      refine ⟨⟨greedy_sublist _ _, ?_, ?_⟩, ?_, ?_⟩
      · rw [hgreedy]
        rfl
      · rw [isChain_slots_iff]
        exact isChain_greedy none ((info :: infos).zipIdx)
      · intro other h
        have hlength := (hahead other h).length_eq
        rw [List.length_take] at hlength
        omega
      · intro other h i x y hx hy
        have hle := (List.forall₂_iff_get.mp (hahead other h)).2 i
        have hlt := (List.getElem?_eq_some_iff.mp hy).1
        rw [← List.getElem?_take_of_lt hlt] at hx
        obtain ⟨hi, rfl⟩ := List.getElem?_eq_some_iff.mp hx
        obtain ⟨hi', rfl⟩ := List.getElem?_eq_some_iff.mp hy
        exact hle hi hi'

/-! ### The recorded proofs of a run -/

/-- Only a received proof brings a message. -/
theorem SlotEvent.eq_recv_of_message {e : SlotEvent} {info : PoTInfo}
    (h : e.message = some info) : e = .recv (.ok info) := by
  unfold SlotEvent.message at h
  split at h
  · cases h
    rfl
  · cases h

namespace SlotMonitor

/-- The proofs that the monitor records on the events, each with its position among
the received ones, when `n` have been received before. A proof is recorded when it
changes the window. -/
def recordedAt (config : SlotsConfig) : SlotMonitor → Nat → List SlotEvent → List (PoTInfo × Nat)
  | _, _, [] => []
  | m, n, e :: events =>
      match m.step config e with
      | none => []
      | some m' =>
          match e.message with
          | none => recordedAt config m' n events
          | some info =>
              if m'.slots = m.slots then recordedAt config m' (n + 1) events
              else (info, n) :: recordedAt config m' (n + 1) events

/-- The events without the proofs that the monitor does not record. -/
def withoutRejected (config : SlotsConfig) : SlotMonitor → List SlotEvent → List SlotEvent
  | _, [] => []
  | m, e :: events =>
      match m.step config e with
      | none => e :: events
      | some m' =>
          if e.message.isSome ∧ m'.slots = m.slots then withoutRejected config m' events
          else e :: withoutRejected config m' events

variable {config : SlotsConfig} {m m' : SlotMonitor} {e : SlotEvent}

/-- After a push the last slot is the pushed one, also when the window is full: a full
window drops the entry before it. -/
theorem lastSlot_of_push {info : PoTInfo} {duration : Nat}
    (hslots : m'.slots = m.slots.forcePush { proof := info.proof, duration := duration }) :
    m'.lastSlot = some info.proof.slot := by
  rw [lastSlot, hslots, BoundedVec.last?_forcePush (by decide)]
  rfl

/-- The proof is the first one, or one for the next slot. -/
def Accepts (m : SlotMonitor) (info : PoTInfo) : Prop :=
  ∀ slot ∈ m.lastSlot, info.proof.slot.toNat = slot.toNat + 1

/-- With a last slot, a proof is accepted exactly when its slot is the one after it. -/
theorem accepts_iff_of_last {details : SlotDetails} (hlast : m.slots.last? = some details)
    {info : PoTInfo} : m.Accepts info ↔ info.proof.slot.toNat = details.proof.slot.toNat + 1 := by
  simp [Accepts, lastSlot, hlast]

/-- The proofs that the monitor accepts are those that the greedy chain takes. -/
theorem takes_iff_accepts {last : Option (PoTInfo × Nat)}
    (hlast : m.lastSlot = last.map fun x => x.1.proof.slot) (info : PoTInfo) (n : Nat) :
    Takes NextSlotAt last (info, n) ↔ m.Accepts info := by
  rw [Accepts, hlast]
  cases last with
  | none => simp
  | some x => simp [NextSlotAt, NextSlot]

/-- A push puts its slot at the end, so it changes the window unless that slot was there. -/
theorem slots_ne_of_push {info : PoTInfo} {duration : Nat}
    (hslots : m'.slots = m.slots.forcePush { proof := info.proof, duration := duration })
    (haccepts : m.Accepts info) : m'.slots ≠ m.slots := by
  intro hsame
  have hlast := lastSlot_of_push hslots
  rw [lastSlot, hsame, ← lastSlot] at hlast
  have hnext := haccepts _ hlast
  omega

/-- What a proof does to the monitor. One that is accepted is pushed. One that is not
leaves the monitor as it is, when the last slot has a successor. -/
theorem Round.accepts_or_not {info : PoTInfo} (hround : Round config m (.recv (.ok info)) m') :
    (m.Accepts info ∧ m'.slots ≠ m.slots ∧ m'.lastSlot = some info.proof.slot) ∨
      (¬ m.Accepts info ∧ m'.slots = m.slots ∧
        ((∀ slot ∈ m.lastSlot, slot.toNat + 1 ≠ 2 ^ 64) → m' = m)) := by
  cases hround with
  | first _ hlast =>
      have haccepts : m.Accepts info := by simp [Accepts, lastSlot, hlast]
      exact Or.inl ⟨haccepts, slots_ne_of_push rfl haccepts, lastSlot_of_push rfl⟩
  | «extends» _ details hlast hnext =>
      have haccepts := (accepts_iff_of_last hlast).mpr hnext
      exact Or.inl ⟨haccepts, slots_ne_of_push (slots_extend _ _ _) haccepts,
        lastSlot_of_push (slots_extend _ _ _)⟩
  | rejects _ details hlast hnext _ =>
      exact Or.inr ⟨mt (accepts_iff_of_last hlast).mp hnext, rfl, fun _ => rfl⟩
  | overflows _ details hlast hmax =>
      refine Or.inr ⟨fun haccepts => ?_, rfl, fun hnext => ?_⟩
      · -- Nothing follows the last slot.
        have hlt := info.proof.slot.toNat_lt
        rw [(accepts_iff_of_last hlast).mp haccepts, hmax] at hlt
        exact Nat.lt_irrefl _ hlt
      · exact absurd hmax (hnext _ (by rw [lastSlot, hlast]; rfl))

/-- A round without a proof, a timeout or the end of the channel, leaves the window alone. -/
theorem Round.slots_of_no_message (hmessage : e.message = none) (hround : Round config m e m') :
    m'.slots = m.slots := by
  cases hround <;> first | rfl | cases hmessage

/-- The monitor records the greedy chain of the proofs it receives. By induction on the
events, with the last slot of the monitor as the last element taken. -/
theorem recordedAt_eq_greedy {events : List SlotEvent} {last : Option (PoTInfo × Nat)} (n : Nat)
    (hlast : m.lastSlot = last.map fun x => x.1.proof.slot)
    (hrun : run (step config) m events = some m') :
    recordedAt config m n events = greedy NextSlotAt last ((messages events).zipIdx n) := by
  induction events generalizing m n last with
  | nil => rfl
  | cons e events ih =>
      obtain ⟨m₁, hstep, hrest⟩ := run_cons_eq_some.mp hrun
      have hround := (step_round hstep).2
      rw [recordedAt, hstep]
      cases hmessage : e.message with
      | none =>
          have hslots := hround.slots_of_no_message hmessage
          rw [messages, List.filterMap_cons_none hmessage]
          exact ih n (by rw [lastSlot, hslots]; exact hlast) hrest
      | some info =>
          obtain rfl := SlotEvent.eq_recv_of_message hmessage
          rw [messages, List.filterMap_cons_some hmessage, List.zipIdx_cons]
          have htakes := takes_iff_accepts hlast info n
          rcases hround.accepts_or_not with ⟨haccepts, hslots, hnew⟩ | ⟨haccepts, hslots, -⟩
          · rw [greedy_cons_of_takes (htakes.mpr haccepts)]
            simp only [if_neg hslots]
            have hchain : recordedAt config m₁ (n + 1) events =
                greedy NextSlotAt (some (info, n)) ((messages events).zipIdx (n + 1)) :=
              ih (n + 1) hnew hrest
            rw [hchain, messages]
          · rw [greedy_cons_of_not_takes (mt htakes.mp haccepts)]
            simp only [if_pos hslots]
            exact ih (n + 1) (by rw [lastSlot, hslots]; exact hlast) hrest

/-- From the start on, the monitor records the greedy chain of the proofs with
their positions. It is the longest run of slots, by the library's result about
greedy chains. -/
theorem recordedAt_init {start₀ : Instant} {events : List SlotEvent}
    (hrun : run (step config) (init start₀) events = some m) :
    recordedAt config (init start₀) 0 events = greedy NextSlotAt none (messages events).zipIdx :=
  recordedAt_eq_greedy 0 rfl hrun

/-- Without the positions these are the recorded proofs of the other results, so the
window is the one that they speak about. -/
theorem map_fst_recordedAt {start₀ : Instant} {events : List SlotEvent}
    (hrun : run (step config) (init start₀) events = some m) :
    (recordedAt config (init start₀) 0 events).map Prod.fst = recorded events := by
  rw [recordedAt_init hrun, map_greedy Prod.fst NextSlotAt fun _ _ => Iff.rfl, List.zipIdx_map_fst]
  rfl

/-! ### The run without the other proofs -/

/-- The last slot of the monitor and the slots of all proofs to come have a successor. -/
structure BelowMax (m : SlotMonitor) (events : List SlotEvent) : Prop where
  last : ∀ slot ∈ m.lastSlot, slot.toNat + 1 ≠ 2 ^ 64
  messages : ∀ info ∈ messages events, info.proof.slot.toNat + 1 ≠ 2 ^ 64

/-- A round leaves a last slot with a successor, its own proof's or the one before. This
is what keeps the increment of the source from a panic. -/
theorem BelowMax.round {events : List SlotEvent} (h : BelowMax m (e :: events))
    (hround : Round config m e m') : BelowMax m' events := by
  have hevents : ∀ info ∈ ChainAlerter.messages events, info.proof.slot.toNat + 1 ≠ 2 ^ 64 := by
    intro info hinfo
    refine h.messages info ?_
    rw [ChainAlerter.messages, List.filterMap_cons]
    split
    · exact hinfo
    · exact List.mem_cons_of_mem _ hinfo
  have hsame : m'.slots = m.slots → BelowMax m' events := by
    intro hslots
    refine ⟨?_, hevents⟩
    rw [lastSlot, hslots]
    exact h.last
  cases hmessage : e.message with
  | none => exact hsame (hround.slots_of_no_message hmessage)
  | some info =>
      obtain rfl := SlotEvent.eq_recv_of_message hmessage
      rcases hround.accepts_or_not with ⟨-, -, hnew⟩ | ⟨-, hslots, -⟩
      · refine ⟨?_, hevents⟩
        rw [hnew]
        rintro _ ⟨⟩
        exact h.messages info (by simp [ChainAlerter.messages, SlotEvent.message])
      · exact hsame hslots

/-- Proofs that are not recorded leave no trace: the run without them ends in the same
state. Each of them leaves the monitor as it is, so it can be taken out of the run. -/
theorem run_withoutRejected {events : List SlotEvent} (hbelow : BelowMax m events)
    (hrun : run (step config) m events = some m') :
    run (step config) m (withoutRejected config m events) = some m' := by
  induction events generalizing m with
  | nil => exact hrun
  | cons e events ih =>
      obtain ⟨m₁, hstep, hrest⟩ := run_cons_eq_some.mp hrun
      have hround := (step_round hstep).2
      have hrest' := ih (hbelow.round hround) hrest
      rw [withoutRejected, hstep]
      by_cases hrejected : e.message.isSome ∧ m₁.slots = m.slots
      · simp only [if_pos hrejected]
        obtain ⟨info, hmessage⟩ := Option.isSome_iff_exists.mp hrejected.1
        obtain rfl := SlotEvent.eq_recv_of_message hmessage
        -- The proof was not accepted, so the run without it goes on from the same state.
        rcases hround.accepts_or_not with ⟨-, hslots, -⟩ | ⟨-, -, hsame⟩
        · exact absurd hrejected.2 hslots
        · rw [hsame hbelow.last] at hrest' ⊢
          exact hrest'
      · simp only [if_neg hrejected]
        exact run_cons_eq_some.mpr ⟨m₁, hstep, hrest'⟩

/-- The proofs that are left are the recorded ones. A proof is left exactly when its
round changes the window, and that is when it is recorded. -/
theorem messages_withoutRejected {events : List SlotEvent} (n : Nat)
    (hrun : run (step config) m events = some m') :
    messages (withoutRejected config m events) =
      (recordedAt config m n events).map Prod.fst := by
  induction events generalizing m n with
  | nil => rfl
  | cons e events ih =>
      obtain ⟨m₁, hstep, hrest⟩ := run_cons_eq_some.mp hrun
      rw [withoutRejected, recordedAt, hstep]
      cases hmessage : e.message with
      | none =>
          simp only [Option.isSome_none, Bool.false_eq_true, false_and, if_false]
          rw [messages, List.filterMap_cons_none hmessage]
          exact ih n hrest
      | some info =>
          by_cases hslots : m₁.slots = m.slots
          · simp only [Option.isSome_some, true_and, if_pos hslots]
            exact ih (n + 1) hrest
          · simp only [Option.isSome_some, true_and, if_neg hslots]
            rw [messages, List.filterMap_cons_some hmessage, List.map_cons]
            exact congrArg (info :: ·) (ih (n + 1) hrest)

/-! ### Slow slots -/

/-- The slots of the slow slot alerts. -/
def slowSlots (alerts : List Alert) : List Nat :=
  alerts.filterMap fun alert =>
    match alert with
    | .slowSlot slow => some slow.slot
    | _ => none

/-- The slow slots of alerts that follow each other. -/
@[simp] theorem slowSlots_append (alerts alerts' : List Alert) :
    slowSlots (alerts ++ alerts') = slowSlots alerts ++ slowSlots alerts' :=
  List.filterMap_append

/-- A recovery is no slow slot. -/
@[simp] theorem slowSlots_recoveryAlerts (proof : GossipProof) (fired : Option Nat) :
    slowSlots (recoveryAlerts proof fired) = [] := by
  cases fired <;> rfl

/-- A comparison of two proofs reports the slot of the later one at most. -/
theorem slowSlots_slowSlotAlerts (last : SlotDetails) (proof : GossipProof) (duration : Nat) :
    (slowSlots (slowSlotAlerts config last proof duration)).Sublist [proof.slot.toNat] := by
  unfold slowSlotAlerts
  split
  · exact List.Sublist.refl _
  · exact List.nil_sublist _

/-- An alert about the average is no slow slot. -/
@[simp] theorem slowSlots_avgSlowSlotAlerts (slots : BoundedVec SlotDetails SLOT_WINDOW)
    (proof : GossipProof) (avg : Nat) :
    slowSlots (avgSlowSlotAlerts config slots proof avg) = [] := by
  unfold avgSlowSlotAlerts
  split <;> rfl

/-- An extension sends at most one slow slot alert, about its own slot. -/
theorem slowSlots_extend (last : SlotDetails) (info : PoTInfo) (duration : Nat) :
    (slowSlots (m.extend config last info duration).alerts).Sublist
      (slowSlots m.alerts ++ [info.proof.slot.toNat]) := by
  have hslow : (slowSlots (slowSlotAlerts config last info.proof duration)).Sublist
      [info.proof.slot.toNat] := slowSlots_slowSlotAlerts _ _ _
  rw [extend]
  split
  · simpa [panic] using hslow
  · simpa using hslow

/-- The slow slots of a run are among the recorded ones, each at most once. By induction
on the events, where an extension adds the slot that it records or nothing. -/
theorem run_slowSlots (config : SlotsConfig) (start₀ : Instant) :
    ∀ (events : List SlotEvent) (m : SlotMonitor),
      run (step config) (init start₀) events = some m →
        (slowSlots m.alerts).Sublist ((recorded events).map fun info => info.proof.slot.toNat) := by
  refine run_history (List.nil_sublist _) fun events m e m' hrun hslow hstep => ?_
  have hrecords := run_records config start₀ events m hrun
  rw [recorded_append_singleton, List.map_append]
  have hother : ∀ later, slowSlots m'.alerts = slowSlots m.alerts →
      (slowSlots m'.alerts).Sublist
        ((recorded events).map (fun info => info.proof.slot.toNat) ++ later) := by
    intro later hsame
    rw [hsame]
    exact hslow.trans (List.sublist_append_left _ _)
  cases (step_round hstep).2 with
  | first info hlast => exact hother _ rfl
  | «extends» info details hlast hnext =>
      have htakes := (hrecords.takes_iff hlast info).mpr hnext
      show (slowSlots _).Sublist (_ ++ (greedy NextSlot (recorded events).getLast? [info]).map _)
      rw [greedy_cons_of_takes htakes]
      exact (slowSlots_extend details info _).trans (hslow.append_right _)
  | rejects info details hlast hnext hmax => exact hother _ rfl
  | overflows info details hlast hmax => exact hother _ rfl
  | closed err => exact hother _ rfl
  | elapsed =>
      refine hother _ ?_
      -- A timeout sends at most a stall alert.
      rw [timeout, slowSlots_append]
      cases m.slots.last? <;> simp [slowSlots]

/-- No slot has two slow slot alerts. The alerted slots are among the recorded ones,
and these rise. -/
theorem nodup_slowSlots {start₀ : Instant} {events : List SlotEvent}
    (hrun : run (step config) (init start₀) events = some m) : (slowSlots m.alerts).Nodup := by
  refine (run_slowSlots config start₀ events m hrun).nodup ?_
  exact (List.pairwise_map.mpr (pairwise_recorded events)).imp Nat.ne_of_lt

end SlotMonitor

/-- Duplicates and reordering never count a slot twice. For every sequence of proofs for
slots below `u64::MAX`, with timeouts anywhere, the recorded proofs are the longest run
of slots in it, each taken as early as possible, and the window holds what a vector with
its bound keeps of them. The run without all other proofs ends in the same state, with
the same alerts. At most one slow slot alert is sent for each slot. The proofs are
received in order, and then all rounds go through. -/
theorem slots_counted_once (config : SlotsConfig) (start₀ : Instant) (events : List SlotEvent)
    (hslots : ∀ info ∈ messages events, info.proof.slot.toNat + 1 ≠ 2 ^ 64) :
    ((∀ err, .recv (.error err) ∉ events) → InOrder (messages events) →
      ∃ m, run (SlotMonitor.step config) (SlotMonitor.init start₀) events = some m ∧
        m.status = .running) ∧
    ∀ m, run (SlotMonitor.step config) (SlotMonitor.init start₀) events = some m →
      let taken := SlotMonitor.recordedAt config (SlotMonitor.init start₀) 0 events
      let rest := SlotMonitor.withoutRejected config (SlotMonitor.init start₀) events
      LongestSlotRun (messages events) taken ∧
      SlotMonitor.Records start₀ (taken.map Prod.fst) m ∧
      messages rest = taken.map Prod.fst ∧
      run (SlotMonitor.step config) (SlotMonitor.init start₀) rest = some m ∧
      (SlotMonitor.slowSlots m.alerts).Nodup := by
  constructor
  · intro hgossip horder
    exact exists_run_of_alwaysHasNext config start₀ events hgossip horder
      (alwaysHasNext_of_messages hslots)
  · intro m hrun
    have hbelow : SlotMonitor.BelowMax (SlotMonitor.init start₀) events :=
      ⟨by simp [SlotMonitor.lastSlot, SlotMonitor.init, BoundedVec.last?], hslots⟩
    refine ⟨?_, ?_, SlotMonitor.messages_withoutRejected 0 hrun,
      SlotMonitor.run_withoutRejected hbelow hrun, SlotMonitor.nodup_slowSlots hrun⟩
    · rw [SlotMonitor.recordedAt_init hrun]
      exact longestSlotRun_greedy (messages events)
    · rw [SlotMonitor.map_fst_recordedAt hrun]
      exact SlotMonitor.run_records config start₀ events m hrun

/-- Proofs of three peers: duplicates, a slot from the future and a timeout. -/
def mixedGossip : List SlotEvent :=
  [gossip 1 5, gossip 2 5, gossip 3 7, .elapsed, gossip 35 6, gossip 36 6, gossip 37 7, gossip 38 5]

/-- Of the eight events three proofs are recorded, at the positions `0`, `3` and `5`,
and they are the longest run of slots. The duplicates and the slot from the future count
for nothing, and the two slow slots have one alert each. -/
theorem slots_counted_once_mixed :
    ∃ m, run (SlotMonitor.step .default) (SlotMonitor.init (.ofSecs 0)) mixedGossip = some m ∧
      SlotMonitor.recordedAt .default (SlotMonitor.init (.ofSecs 0)) 0 mixedGossip =
        [(potInfo 1 5, 0), (potInfo 35 6, 3), (potInfo 37 7, 5)] ∧
      LongestSlotRun (messages mixedGossip)
        [(potInfo 1 5, 0), (potInfo 35 6, 3), (potInfo 37 7, 5)] ∧
      SlotMonitor.slowSlots m.alerts = [6, 7] := by
  obtain ⟨hruns, hall⟩ :=
    slots_counted_once .default (.ofSecs 0) mixedGossip (by decide)
  obtain ⟨m, hrun, -⟩ := hruns (by simp [mixedGossip, gossip]) (by decide)
  exact ⟨m, hrun, by decide, (hall m hrun).1, by cases hrun; decide⟩

end ChainAlerter
