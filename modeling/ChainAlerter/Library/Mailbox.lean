import ChainAlerter.Library.EventRun

/-!
# `ChainAlerter.Library.Mailbox`: a queue with many senders and one receiver

An unbounded channel. Each of several senders puts messages at the end, and one
receiver takes them from the front. When the receiver is gone, what is still in the
queue is lost, and so is what comes later.

A mailbox keeps its history: the messages that were put in, each with its sender, and
those that were taken out. `Sound` is what every operation keeps: what was taken is an
initial segment of what was put in, and as long as the receiver is there, the queue is
the rest.

`Handed` relates a sender to the mailbox: what it has put in is an initial segment of
what it has made, and all of it as long as the receiver is there.
-/

set_option autoImplicit false

namespace ChainAlerter.Library

variable {ι α : Type}

/-! ### One sender of many -/

section
variable [DecidableEq ι]

/-- The messages of one sender in a log, in their order. -/
def sentBy (i : ι) (log : List (ι × α)) : List α := (log.filter fun x => x.1 = i).map Prod.snd

/-- Nobody has sent anything into an empty log. -/
@[simp] theorem sentBy_nil (i : ι) : sentBy i ([] : List (ι × α)) = [] := rfl

/-- What a sender has sent is the concatenation of what it sent before and later. -/
@[simp] theorem sentBy_append (i : ι) (log later : List (ι × α)) :
    sentBy i (log ++ later) = sentBy i log ++ sentBy i later := by
  simp [sentBy]

/-- All entries with one sender's tag are that sender's, so selecting by the tag gives
the messages back. -/
theorem sentBy_tagged_self (i : ι) (xs : List α) :
    sentBy i (xs.map fun x => (i, x)) = xs := by
  induction xs with
  | nil => rfl
  | cons x xs ih =>
      have hcons : sentBy i ((x :: xs).map fun x => (i, x)) =
          x :: sentBy i (xs.map fun x => (i, x)) := by
        simp [sentBy]
      rw [hcons, ih]

/-- Entries with one sender's tag are no other sender's. -/
theorem sentBy_tagged_ne {i j : ι} (h : j ≠ i) (xs : List α) :
    sentBy i (xs.map fun x => (j, x)) = [] := by
  simp [sentBy, h]

/-- When each message tells its sender, those of one sender are selected by it. The tag
of the log is a matter of the model, and this lemma reads it off the messages. -/
theorem filter_eq_sentBy {log : List (ι × α)} {sender : α → ι}
    (h : ∀ entry ∈ log, sender entry.2 = entry.1) (i : ι) :
    (log.map Prod.snd).filter (fun x => sender x = i) = sentBy i log := by
  rw [List.filter_map, sentBy]
  congr 1
  refine List.filter_congr fun entry hentry => ?_
  simp [h entry hentry]

/-- An entry of the log is among those of its own sender. -/
theorem mem_sentBy_of_mem {log : List (ι × α)} {entry : ι × α} (h : entry ∈ log) :
    entry.2 ∈ sentBy entry.1 log :=
  List.mem_map.mpr ⟨entry, List.mem_filter.mpr ⟨h, by simp⟩, rfl⟩

end

/-! ### The mailbox -/

/-- The queue, oldest first, with what was put in and what was taken out so far. -/
structure Mailbox (ι α : Type) where
  queue : List α
  taken : List α
  log : List (ι × α)
  isOpen : Bool

namespace Mailbox

/-- An open mailbox into which nothing has been put. -/
def empty : Mailbox ι α := { queue := [], taken := [], log := [], isOpen := true }

/-- Messages of one sender. They are lost when the receiver is gone. -/
def sendAll (m : Mailbox ι α) (i : ι) (xs : List α) : Mailbox ι α :=
  if m.isOpen then
    { m with queue := m.queue ++ xs, log := m.log ++ xs.map fun x => (i, x) }
  else m

/-- The receiver takes the oldest message. It is told when there is none and no sender
is left, and waits otherwise. -/
def recv (m : Mailbox ι α) (senders : Nat) : Option (Option α × Mailbox ι α) :=
  match m.queue with
  | x :: queue => some (some x, { m with queue := queue, taken := m.taken ++ [x] })
  | [] => if senders = 0 then some (none, m) else none

/-- The receiver is gone. -/
def close (m : Mailbox ι α) : Mailbox ι α := { m with queue := [], isOpen := false }

/-- What was taken is an initial segment of what was put in. The queue is the rest, as
long as the receiver is there. -/
structure Sound (m : Mailbox ι α) : Prop where
  taken_initial : m.taken <+: m.log.map Prod.snd
  queue : m.isOpen = true → m.taken ++ m.queue = m.log.map Prod.snd

/-- At the start nothing is logged, and nothing waits. -/
theorem sound_empty : (empty : Mailbox ι α).Sound := ⟨List.prefix_rfl, fun _ => rfl⟩

variable {m : Mailbox ι α}

/-- Sending keeps the log to be what was taken and what waits, because an open mailbox
gets the entries at the end of both, and a closed one drops them. -/
theorem Sound.sendAll (h : m.Sound) (i : ι) (xs : List α) : (m.sendAll i xs).Sound := by
  unfold Mailbox.sendAll
  split
  · rename_i hopen
    have hqueue := h.queue hopen
    refine ⟨?_, fun _ => ?_⟩
    · show m.taken <+: (m.log ++ xs.map fun x => (i, x)).map Prod.snd
      rw [List.map_append]
      exact h.taken_initial.trans (List.prefix_append _ _)
    · show m.taken ++ (m.queue ++ xs) = (m.log ++ xs.map fun x => (i, x)).map Prod.snd
      rw [← List.append_assoc, hqueue]
      simp
  · exact h

/-- A receive takes a message, or finds nothing and no sender. In between, with an empty
queue and a sender, it waits, which is no step. -/
theorem recv_eq_some {senders : Nat} {received : Option α} {m' : Mailbox ι α}
    (h : m.recv senders = some (received, m')) :
    (∃ x queue, m.queue = x :: queue ∧ received = some x ∧
      m' = { m with queue := queue, taken := m.taken ++ [x] }) ∨
    (m.queue = [] ∧ senders = 0 ∧ received = none ∧ m' = m) := by
  unfold recv at h
  split at h
  · rename_i x queue hqueue
    cases h
    exact Or.inl ⟨x, queue, hqueue, rfl, rfl⟩
  · rename_i hqueue
    split at h
    · rename_i hsenders
      cases h
      exact Or.inr ⟨hqueue, hsenders, rfl, rfl⟩
    · cases h

/-- Receiving moves the oldest entry that waits to those taken, and leaves the log as it is. -/
theorem Sound.recv (h : m.Sound) (hopen : m.isOpen = true) {senders : Nat} {received : Option α}
    {m' : Mailbox ι α} (hrecv : m.recv senders = some (received, m')) : m'.Sound := by
  rcases recv_eq_some hrecv with ⟨x, queue, hqueue, -, rfl⟩ | ⟨-, -, -, rfl⟩
  · have hall : m.taken ++ [x] ++ queue = m.log.map Prod.snd := by
      rw [← h.queue hopen, hqueue, List.append_assoc]
      rfl
    exact ⟨⟨queue, hall⟩, fun _ => hall⟩
  · exact h

/-- Closing drops what waits. The entries that were taken are still an initial
segment of the log. -/
theorem Sound.close (h : m.Sound) : m.close.Sound :=
  ⟨h.taken_initial, fun hopen => by cases hopen⟩

/-- Sending nothing changes nothing. -/
@[simp] theorem sendAll_nil (i : ι) : m.sendAll i [] = m := by
  unfold Mailbox.sendAll
  split <;> simp

/-- Sending does not close the mailbox. -/
@[simp] theorem isOpen_sendAll (i : ι) (xs : List α) : (m.sendAll i xs).isOpen = m.isOpen := by
  unfold Mailbox.sendAll
  split <;> rfl

/-- Sending takes nothing out of the mailbox. -/
@[simp] theorem taken_sendAll (i : ι) (xs : List α) : (m.sendAll i xs).taken = m.taken := by
  unfold Mailbox.sendAll
  split <;> rfl

/-! ### What a sender has handed over -/

section
variable [DecidableEq ι]

/-- The sender `i` has made the messages `xs`, and has put in all of them, or those up
to when the receiver went. -/
structure Handed (m : Mailbox ι α) (i : ι) (xs : List α) : Prop where
  initial : sentBy i m.log <+: xs
  all : m.isOpen = true → sentBy i m.log = xs

/-- At the start a sender has handed over nothing, and nothing is logged. -/
theorem handed_empty (i : ι) : (empty : Mailbox ι α).Handed i [] := ⟨List.prefix_rfl, fun _ => rfl⟩

/-- In an open mailbox, what `j` has sent grows by the entries if they are from `j`, and
else it stays. So the senders do not disturb each other. -/
theorem sentBy_sendAll (hopen : m.isOpen = true) (i j : ι) (xs : List α) :
    sentBy j (m.sendAll i xs).log = sentBy j m.log ++ if i = j then xs else [] := by
  rw [Mailbox.sendAll, if_pos hopen]
  show sentBy j (m.log ++ xs.map fun x => (i, x)) = _
  rw [sentBy_append]
  by_cases hij : i = j
  · rw [if_pos hij, hij, sentBy_tagged_self]
  · rw [if_neg hij, sentBy_tagged_ne hij]

/-- The sender makes more messages, and puts them in. What it has made so far is an
initial segment, so the new part is what it puts in. -/
theorem Handed.sendAll_self {i : ι} {xs xs' : List α} (h : m.Handed i xs) (hgrow : xs <+: xs') :
    (m.sendAll i (xs'.drop xs.length)).Handed i xs' := by
  by_cases hopen : m.isOpen = true
  · have hall : sentBy i (m.sendAll i (xs'.drop xs.length)).log = xs' := by
      rw [sentBy_sendAll hopen, if_pos rfl, h.all hopen]
      exact List.prefix_iff_eq_append.mp hgrow
    exact ⟨by rw [hall], fun _ => hall⟩
  · rw [Mailbox.sendAll, if_neg hopen]
    exact ⟨h.initial.trans hgrow, fun hopen' => absurd hopen' hopen⟩

/-- Another sender puts messages in, which leaves those of the first one in the
log as they are. -/
theorem Handed.sendAll_of_ne {i j : ι} {xs : List α} (h : m.Handed j xs) (hne : i ≠ j)
    (ys : List α) : (m.sendAll i ys).Handed j xs := by
  by_cases hopen : m.isOpen = true
  · have hsame : sentBy j (m.sendAll i ys).log = sentBy j m.log := by
      rw [sentBy_sendAll hopen, if_neg hne, List.append_nil]
    exact ⟨hsame ▸ h.initial, fun _ => hsame ▸ h.all hopen⟩
  · rw [Mailbox.sendAll, if_neg hopen]
    exact h

/-- Closing leaves the log as it is, so what was handed over stays. -/
theorem Handed.close {i : ι} {xs : List α} (h : m.Handed i xs) : m.close.Handed i xs :=
  ⟨h.initial, fun hopen => by cases hopen⟩

end

end Mailbox

end ChainAlerter.Library
