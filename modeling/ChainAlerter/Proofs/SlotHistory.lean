import ChainAlerter.Library.EventRun
import ChainAlerter.Library.GreedyChain
import ChainAlerter.Model.Slots

/-!
# `ChainAlerter.Proofs.SlotHistory`: what the slot monitor has recorded

The monitor takes the first proof it receives, and after it each proof for the
slot after the last one taken. So the recorded proofs are the greedy chain of
the received ones (`recorded`), and the whole history of the window is in them:
`details` gives each recorded slot the time since the one before it, and the
first one the time since the start of the monitor.

`run_records` is the refinement. In every state that the monitor reaches, the
window is what a vector with its bound keeps of these details, and the last
instant is that of the last recorded proof.
-/

set_option autoImplicit false

namespace ChainAlerter

open ChainAlerter.Library

/-! ### The recorded proofs -/

/-- `b` is a proof for the slot after that of `a`. -/
def NextSlot (a b : PoTInfo) : Prop := b.proof.slot.toNat = a.proof.slot.toNat + 1

instance : DecidableRel NextSlot := fun a b =>
  inferInstanceAs (Decidable (b.proof.slot.toNat = a.proof.slot.toNat + 1))

/-- The proof that an event brings. -/
def SlotEvent.message : SlotEvent → Option PoTInfo
  | .recv (.ok info) => some info
  | _ => none

/-- The received proofs. -/
def messages (events : List SlotEvent) : List PoTInfo := events.filterMap SlotEvent.message

/-- The recorded proofs. -/
def recorded (events : List SlotEvent) : List PoTInfo := greedy NextSlot none (messages events)

/-- A proof for `slot`, received `secs` seconds after the earliest instant. -/
def potInfo (secs : UInt64) (slot : Slot) : PoTInfo :=
  { receivedAt := .ofSecs secs, proof := { slot := slot } }

/-- The arrival of such a proof. -/
def gossip (secs : UInt64) (slot : Slot) : SlotEvent := .recv (.ok (potInfo secs slot))

/-- When the last proof was received, or the start. -/
def lastReceived (start : Instant) (history : List PoTInfo) : Instant :=
  (history.getLast?.map PoTInfo.receivedAt).getD start

/-- The details of recorded proofs: each with the time since the one before it, and the
first with the time since `start`. -/
def details (start : Instant) : List PoTInfo → List SlotDetails
  | [] => []
  | info :: history =>
      { proof := info.proof, duration := info.receivedAt.durationSince start } ::
        details info.receivedAt history

/-- Without a proof the last instant is the start. -/
@[simp] theorem lastReceived_nil (start : Instant) : lastReceived start [] = start := rfl

/-- After a proof the last instant is when it was received, whatever came before it. -/
@[simp] theorem lastReceived_append_singleton (start : Instant) (history : List PoTInfo)
    (info : PoTInfo) : lastReceived start (history ++ [info]) = info.receivedAt := by
  simp [lastReceived]

/-- A proof more adds its details at the end, with the time since the proof
before it. It is what an extension pushes to the window, so the refinement goes
by this equation. -/
theorem details_append_singleton (start : Instant) (history : List PoTInfo) (info : PoTInfo) :
    details start (history ++ [info]) = details start history ++
      [{ proof := info.proof
         duration := info.receivedAt.durationSince (lastReceived start history) }] := by
  induction history generalizing start with
  | nil => rfl
  | cons first history ih =>
      have hlast : lastReceived first.receivedAt history = lastReceived start (first :: history) := by
        rw [lastReceived, lastReceived, List.getLast?_cons]
        cases history.getLast? <;> rfl
      rw [List.cons_append, details, ih, details, List.cons_append, hlast]

/-- There are as many details as proofs. -/
@[simp] theorem length_details (start : Instant) (history : List PoTInfo) :
    (details start history).length = history.length := by
  induction history generalizing start with
  | nil => rfl
  | cons first history ih => rw [details, List.length_cons, List.length_cons, ih]

/-- The details keep the proofs, in their order. -/
theorem map_proof_details (start : Instant) (history : List PoTInfo) :
    (details start history).map SlotDetails.proof = history.map PoTInfo.proof := by
  induction history generalizing start with
  | nil => rfl
  | cons first history ih => rw [details, List.map_cons, List.map_cons, ih]

/-- The details keep the slots, in their order. The window of the monitor is a part of
them, so the order of its slots is that of the recorded proofs. -/
theorem map_slot_details (start : Instant) (history : List PoTInfo) :
    (details start history).map (fun x => x.proof.slot.toNat) =
      history.map (fun info => info.proof.slot.toNat) := by
  have h := congrArg (List.map fun proof : GossipProof => proof.slot.toNat)
    (map_proof_details start history)
  rw [List.map_map, List.map_map] at h
  exact h

/-- An event more adds its proof to the received ones, if it brings one. -/
theorem messages_append_singleton (events : List SlotEvent) (e : SlotEvent) :
    messages (events ++ [e]) = messages events ++ e.message.toList := by
  rw [messages, List.filterMap_append, ← messages]
  cases h : e.message <;> simp [h]

/-- An event adds its proof to the recorded ones, if it is taken after the last of them. -/
theorem recorded_append_singleton (events : List SlotEvent) (e : SlotEvent) :
    recorded (events ++ [e]) =
      recorded events ++ greedy NextSlot (recorded events).getLast? e.message.toList := by
  have hlast : lastTaken NextSlot none (messages events) = (recorded events).getLast? := by
    rw [lastTaken, Option.or_none, recorded]
  rw [recorded, messages_append_singleton, greedy_append, hlast, ← recorded]

/-- The recorded slots are consecutive. -/
theorem isChain_recorded (events : List SlotEvent) : (recorded events).IsChain NextSlot :=
  isChain_greedy none (messages events)

/-! ### The increment -/

/-- The successor of a slot is the number after it. The slots are `u64`s, and this is
the one lemma through which the rounds come to be about numbers. -/
theorem Slot.succ_eq_some_iff {slot next : Slot} :
    slot.succ = some next ↔ next.toNat = slot.toNat + 1 := by
  rw [Slot.succ]
  split
  · rename_i hlt
    rw [Option.some.injEq, ← UInt64.toNat_inj, UInt64.toNat_add]
    have hone : (1 : UInt64).toNat = 1 := rfl
    rw [hone, Nat.mod_eq_of_lt hlt, eq_comm]
  · rename_i hlt
    have hnext := next.toNat_lt
    constructor
    · intro h
      cases h
    · intro h
      omega

/-- Only the last `u64` has no successor. There the checked addition of the source
fails, and its `expect` panics. -/
theorem Slot.succ_eq_none_iff {slot : Slot} : slot.succ = none ↔ slot.toNat + 1 = 2 ^ 64 := by
  have hslot := slot.toNat_lt
  rw [Slot.succ]
  split
  · rename_i hlt
    constructor
    · intro h
      cases h
    · intro h
      omega
  · rename_i hlt
    exact ⟨fun _ => by omega, fun _ => rfl⟩

/-! ### The rounds of the monitor -/

namespace SlotMonitor

variable {config : SlotsConfig} {m m' : SlotMonitor} {e : SlotEvent}

/-- The monitor after the first proof. -/
def start (m : SlotMonitor) (info : PoTInfo) : SlotMonitor :=
  { m with
    slots := m.slots.forcePush
      { proof := info.proof, duration := info.receivedAt.durationSince m.lastInstant }
    lastInstant := info.receivedAt }

/-- Everything that a round can do. A proof is the first one, extends the chain, is
rejected, or meets the last slot that has no successor. -/
inductive Round (config : SlotsConfig) (m : SlotMonitor) : SlotEvent → SlotMonitor → Prop where
  | first (info : PoTInfo) (hlast : m.slots.last? = none) :
      Round config m (.recv (.ok info)) (m.start info)
  | extends (info : PoTInfo) (last : SlotDetails) (hlast : m.slots.last? = some last)
      (hnext : info.proof.slot.toNat = last.proof.slot.toNat + 1) :
      Round config m (.recv (.ok info))
        (m.extend config last info (info.receivedAt.durationSince m.lastInstant))
  | rejects (info : PoTInfo) (last : SlotDetails) (hlast : m.slots.last? = some last)
      (hnext : info.proof.slot.toNat ≠ last.proof.slot.toNat + 1)
      (hmax : last.proof.slot.toNat + 1 ≠ 2 ^ 64) : Round config m (.recv (.ok info)) m
  | overflows (info : PoTInfo) (last : SlotDetails) (hlast : m.slots.last? = some last)
      (hmax : last.proof.slot.toNat + 1 = 2 ^ 64) : Round config m (.recv (.ok info)) m.panic
  | closed (err : RecvError) :
      Round config m (.recv (.error err)) { m with status := .returned (.broadRecvErr err) }
  | elapsed : Round config m .elapsed m.timeout

/-- The reaction to a proof is one of the rounds, by the two comparisons of the source:
there is a last slot, and the slot of the proof is the one after it. -/
theorem recvSlot_round (info : PoTInfo) :
    Round config m (.recv (.ok info)) (m.recvSlot config info) := by
  simp only [recvSlot]
  cases hlast : m.slots.last? with
  | none => exact .first info hlast
  | some last =>
      dsimp only
      cases hsucc : last.proof.slot.succ with
      | none => exact .overflows info last hlast (Slot.succ_eq_none_iff.mp hsucc)
      | some next =>
          dsimp only
          have hnext := Slot.succ_eq_some_iff.mp hsucc
          -- The comparison is one of `u64`s, the cases of a round are about numbers.
          by_cases heq : info.proof.slot = next
          · rw [if_neg (not_not_intro heq)]
            exact .extends info last hlast (by rw [heq, hnext])
          · rw [if_pos heq]
            refine .rejects info last hlast (fun h => heq ?_) ?_
            · rw [← UInt64.toNat_inj, h, hnext]
            · have := next.toNat_lt
              omega

/-- Only a running monitor steps, and its step is a round. All invariants of the slot
monitor are proved over the cases of a round, and none of them unfolds the step. -/
theorem step_round (h : m.step config e = some m') : m.status = .running ∧ Round config m e m' := by
  obtain ⟨timeoutFired, lastInstant, slots, alerts, status⟩ := m
  cases status with
  | running =>
      cases e with
      | recv result =>
          cases result with
          | ok info =>
              cases h
              exact ⟨rfl, recvSlot_round info⟩
          | error err =>
              cases h
              exact ⟨rfl, .closed err⟩
      | elapsed =>
          cases h
          exact ⟨rfl, .elapsed⟩
  | returned err => cases h
  | panicked => cases h

/-- A running monitor has a step on every event. -/
theorem exists_step (config : SlotsConfig) (e : SlotEvent) (h : m.status = .running) :
    ∃ m', m.step config e = some m' := by
  obtain ⟨timeoutFired, lastInstant, slots, alerts, status⟩ := m
  cases h
  cases e with
  | recv result => cases result <;> exact ⟨_, rfl⟩
  | elapsed => exact ⟨_, rfl⟩

/-- An extension pushes the proof to the window, also when the sum of the window
overflows after it. -/
@[simp] theorem slots_extend (last : SlotDetails) (info : PoTInfo) (duration : Nat) :
    (m.extend config last info duration).slots =
      m.slots.forcePush { proof := info.proof, duration := duration } := by
  rw [extend]
  split <;> rfl

/-- An extension remembers when its proof was received. -/
@[simp] theorem lastInstant_extend (last : SlotDetails) (info : PoTInfo) (duration : Nat) :
    (m.extend config last info duration).lastInstant = info.receivedAt := by
  rw [extend]
  split <;> rfl

/-- An extension forgets the timeout that fired. -/
@[simp] theorem timeoutFired_extend (last : SlotDetails) (info : PoTInfo) (duration : Nat) :
    (m.extend config last info duration).timeoutFired = none := by
  rw [extend]
  split <;> rfl

/-! ### The refinement -/

/-- The window and the last instant come from the recorded proofs `history`. -/
structure Records (start : Instant) (history : List PoTInfo) (m : SlotMonitor) : Prop where
  slots : m.slots.elems = BoundedVec.kept SLOT_WINDOW (details start history)
  lastInstant : m.lastInstant = lastReceived start history

variable {start₀ : Instant} {history : List PoTInfo}

/-- At the start nothing is recorded: the window is empty, and the last instant is the start. -/
theorem records_init (start₀ : Instant) : Records start₀ [] (init start₀) :=
  ⟨by simp [init, details], rfl⟩

/-- The last slot of the window is the last recorded one. -/
theorem Records.last? (h : Records start₀ history m) :
    m.slots.last?.map SlotDetails.proof = history.getLast?.map PoTInfo.proof := by
  rw [BoundedVec.last?, h.slots, BoundedVec.getLast?_kept, ← List.getLast?_map,
    ← List.getLast?_map, map_proof_details]

/-- The window is empty exactly when nothing has been recorded, as it never drops
its last slot. -/
theorem Records.last?_eq_none_iff (h : Records start₀ history m) :
    m.slots.last? = none ↔ history.getLast? = none := by
  rw [← Option.map_eq_none_iff, h.last?, Option.map_eq_none_iff]

/-- The last details of the window are those of the last recorded proof. -/
theorem Records.exists_last (h : Records start₀ history m) {last : SlotDetails}
    (hlast : m.slots.last? = some last) :
    ∃ info, history.getLast? = some info ∧ info.proof = last.proof := by
  have hproof := h.last?
  rw [hlast] at hproof
  exact Option.map_eq_some_iff.mp hproof.symm

/-- The chain takes a proof for the slot after the last one of the window. -/
theorem Records.takes_iff (h : Records start₀ history m) {last : SlotDetails}
    (hlast : m.slots.last? = some last) (info : PoTInfo) :
    Takes NextSlot history.getLast? info ↔
      info.proof.slot.toNat = last.proof.slot.toNat + 1 := by
  obtain ⟨before, hbefore, hproof⟩ := h.exists_last hlast
  rw [hbefore, takes_some, NextSlot, hproof]

/-- A proof pushed with the time since the last instant. -/
theorem Records.push (h : Records start₀ history m) (info : PoTInfo) {m' : SlotMonitor}
    (hslots : m'.slots = m.slots.forcePush
      { proof := info.proof, duration := info.receivedAt.durationSince m.lastInstant })
    (hinstant : m'.lastInstant = info.receivedAt) : Records start₀ (history ++ [info]) m' := by
  refine ⟨?_, by rw [hinstant, lastReceived_append_singleton]⟩
  rw [hslots, BoundedVec.elems_forcePush (by decide), h.slots, details_append_singleton,
    BoundedVec.kept_append_singleton, h.lastInstant]

/-- A round records a proof exactly when the greedy chain takes it. This is the step of
the refinement: the window and the last instant are functions of the recorded proofs. -/
theorem Round.records (h : Records start₀ history m) (hround : Round config m e m') :
    Records start₀ (history ++ greedy NextSlot history.getLast? e.message.toList) m' := by
  cases hround with
  | first info hlast =>
      -- The chain takes any proof as its first one.
      have hnone := h.last?_eq_none_iff.mp hlast
      rw [hnone]
      exact h.push info rfl rfl
  | «extends» info last hlast hnext =>
      have htakes := (h.takes_iff hlast info).mpr hnext
      change Records start₀ (history ++ greedy NextSlot history.getLast? [info]) _
      rw [greedy_cons_of_takes htakes]
      exact h.push info (slots_extend _ _ _) (lastInstant_extend _ _ _)
  | rejects info last hlast hnext hmax =>
      have htakes := mt (h.takes_iff hlast info).mp hnext
      change Records start₀ (history ++ greedy NextSlot history.getLast? [info]) _
      rw [greedy_cons_of_not_takes htakes, greedy_nil, List.append_nil]
      exact h
  | overflows info last hlast hmax =>
      -- No slot follows the last one, so the chain does not take the proof either.
      have htakes : ¬ Takes NextSlot history.getLast? info := by
        rw [h.takes_iff hlast info]
        have hlt := info.proof.slot.toNat_lt
        omega
      change Records start₀ (history ++ greedy NextSlot history.getLast? [info]) _
      rw [greedy_cons_of_not_takes htakes, greedy_nil, List.append_nil]
      exact ⟨h.slots, h.lastInstant⟩
  | closed err =>
      change Records start₀ (history ++ []) _
      rw [List.append_nil]
      exact ⟨h.slots, h.lastInstant⟩
  | elapsed =>
      change Records start₀ (history ++ []) _
      rw [List.append_nil]
      exact ⟨h.slots, h.lastInstant⟩

/-- In every state that the monitor reaches, the window comes from the recorded proofs. -/
theorem run_records (config : SlotsConfig) (start₀ : Instant) :
    ∀ (events : List SlotEvent) (m : SlotMonitor),
      run (step config) (init start₀) events = some m → Records start₀ (recorded events) m := by
  refine run_history (records_init start₀) fun events m e m' _ hrecords hstep => ?_
  rw [recorded_append_singleton]
  exact (step_round hstep).2.records hrecords

end SlotMonitor

end ChainAlerter
