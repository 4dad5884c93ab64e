import ChainAlerter.Library.EventRun

/-!
# `ChainAlerter.Library.BroadcastChannel`: a channel that overwrites

A bounded channel with one sender and many receivers. It keeps the newest messages
and overwrites the oldest. A receiver is a position in the sequence of all
messages. When the message at its position has been overwritten, it is told so
before anything later, and its position moves to the oldest message that is left.

`Feed` follows one receiver that stops at the first such error, among sends and
receives in any order. `run_sound` says that what it takes is always an initial
segment of what was sent. `run_done` says that once it has fallen behind it takes
nothing more.
-/

set_option autoImplicit false

namespace ChainAlerter.Library

/-- The newest messages, oldest first, and how many were overwritten before them. -/
structure BroadcastChannel (α : Type) (capacity : Nat) where
  buffer : List α
  dropped : Nat
  closed : Bool
  length_le : buffer.length ≤ capacity

/-- What a receiver gets. -/
inductive Received (α : Type) where
  | message (x : α)
  | lagged (skipped : Nat)
  | closed
  deriving DecidableEq

/-- The message, when it is one. -/
def Received.message? {α : Type} : Received α → Option α
  | .message x => some x
  | _ => none

namespace BroadcastChannel

variable {α : Type} {capacity : Nat}

/-- A channel into which nothing has been sent. -/
def empty : BroadcastChannel α capacity :=
  { buffer := [], dropped := 0, closed := false, length_le := Nat.zero_le _ }

/-- A message at the end. A full channel drops its oldest one. -/
def send (c : BroadcastChannel α capacity) (x : α) : BroadcastChannel α capacity :=
  let excess := c.buffer.length + 1 - capacity
  { buffer := (c.buffer ++ [x]).drop excess
    dropped := c.dropped + excess
    closed := c.closed
    length_le := by
      rw [List.length_drop, List.length_append, List.length_singleton]
      omega }

/-- The sender is gone. -/
def close (c : BroadcastChannel α capacity) : BroadcastChannel α capacity := { c with closed := true }

/-- What the receiver at `next` gets, with its position afterwards. It waits while the
channel has nothing for it. -/
def recv (c : BroadcastChannel α capacity) (next : Nat) : Option (Received α × Nat) :=
  if next < c.dropped then some (.lagged (c.dropped - next), c.dropped)
  else
    match c.buffer[next - c.dropped]? with
    | some x => some (.message x, next + 1)
    | none => if c.closed then some (.closed, next) else none

/-- Messages one after the other. -/
def sendAll (c : BroadcastChannel α capacity) (xs : List α) : BroadcastChannel α capacity :=
  xs.foldl send c

/-- The channel holds the end of the messages `sent`. -/
structure Holds (c : BroadcastChannel α capacity) (sent : List α) : Prop where
  buffer : c.buffer = sent.drop c.dropped
  dropped_le : c.dropped ≤ sent.length

/-- Before anything is sent, the buffer is empty and nothing has been dropped. -/
theorem holds_empty : Holds (empty : BroadcastChannel α capacity) [] := ⟨rfl, le_rfl⟩

/-- A send appends to the buffer. If it drops the oldest element, that one counts as
dropped, so buffer and dropped ones together still are what was sent. -/
theorem Holds.send {c : BroadcastChannel α capacity} {sent : List α} (h : c.Holds sent) (x : α) :
    (c.send x).Holds (sent ++ [x]) := by
  have hlength : c.buffer.length = sent.length - c.dropped := by rw [h.buffer, List.length_drop]
  have hle := h.dropped_le
  refine ⟨?_, ?_⟩
  · -- What is dropped now comes on top of what was dropped before.
    show (c.buffer ++ [x]).drop _ = (sent ++ [x]).drop (c.dropped + _)
    rw [← List.drop_drop, List.drop_append_of_le_length hle, ← h.buffer]
  · show c.dropped + (c.buffer.length + 1 - capacity) ≤ (sent ++ [x]).length
    rw [List.length_append, List.length_singleton]
    omega

/-- What is overwritten does not come back, so a receiver that has fallen behind stays
behind until it is told so. -/
theorem dropped_le_sendAll (c : BroadcastChannel α capacity) (xs : List α) :
    c.dropped ≤ (c.sendAll xs).dropped := by
  induction xs generalizing c with
  | nil => exact le_rfl
  | cons x xs ih =>
      have hsend : c.dropped ≤ (c.send x).dropped := Nat.le_add_right _ _
      exact hsend.trans (ih (c.send x))

/-- A receiver that has fallen behind is told so. -/
theorem recv_of_lt {c : BroadcastChannel α capacity} {next : Nat} (h : next < c.dropped) :
    c.recv next = some (.lagged (c.dropped - next), c.dropped) := by
  rw [recv, if_pos h]

/-- Sending does not close the channel. -/
theorem closed_sendAll (c : BroadcastChannel α capacity) (xs : List α) :
    (c.sendAll xs).closed = c.closed := by
  induction xs generalizing c with
  | nil => rfl
  | cons x xs ih => exact ih (c.send x)

/-- A receiver that keeps up with an open channel gets messages only. The two errors are
those of a closed channel and of a receiver that has fallen behind. -/
theorem exists_message_of_recv {c : BroadcastChannel α capacity} {next next' : Nat}
    {received : Received α} (hopen : c.closed = false) (hkept : ¬ next < c.dropped)
    (hrecv : c.recv next = some (received, next')) : ∃ x, received = .message x := by
  rw [recv, if_neg hkept] at hrecv
  split at hrecv
  · rename_i x _
    cases hrecv
    exact ⟨x, rfl⟩
  · rw [if_neg (by simp [hopen])] at hrecv
    cases hrecv

/-- A message that is received is the one at the position of the receiver, and the
receiver goes on to the next position. So messages are taken in the order in which
they were sent. -/
theorem Holds.recv_message {c : BroadcastChannel α capacity} {sent : List α} (h : c.Holds sent)
    {next next' : Nat} {x : α} (hrecv : c.recv next = some (.message x, next')) :
    sent[next]? = some x ∧ next' = next + 1 := by
  rw [recv] at hrecv
  split at hrecv
  · cases hrecv
  · rename_i hnext
    split at hrecv
    · rename_i y hy
      cases hrecv
      -- The position in the buffer is the one in all messages, less those dropped.
      rw [h.buffer, List.getElem?_drop, Nat.add_sub_cancel' (Nat.le_of_not_lt hnext)] at hy
      exact ⟨hy, rfl⟩
    · split at hrecv <;> cases hrecv

end BroadcastChannel

/-! ### One receiver -/

/-- A channel with all messages ever sent, and a receiver with the messages it has taken. -/
structure Feed (α : Type) (capacity : Nat) where
  channel : BroadcastChannel α capacity
  sent : List α
  next : Nat
  taken : List α
  running : Bool

/-- What can happen to a channel with one receiver: a send, the end of the senders, a
receive, and the end of the receiver. -/
inductive FeedEvent (α : Type) where
  | send (x : α)
  | close
  | recv
  | stop

namespace Feed

variable {α : Type} {capacity : Nat} {f f' : Feed α capacity}

/-- The receiver was subscribed before the first message. -/
def init : Feed α capacity :=
  { channel := .empty, sent := [], next := 0, taken := [], running := true }

/-- The receiver takes messages until it gets an error, or stops by itself. -/
def step (f : Feed α capacity) : FeedEvent α → Option (Feed α capacity)
  | .send x => some { f with channel := f.channel.send x, sent := f.sent ++ [x] }
  | .close => some { f with channel := f.channel.close }
  | .recv =>
      if f.running then
        match f.channel.recv f.next with
        | some (.message x, next) => some { f with next := next, taken := f.taken ++ [x] }
        | some (_, next) => some { f with next := next, running := false }
        | none => none
      else none
  | .stop => some { f with running := false }

/-- The channel holds the end of what was sent. What was taken is an initial segment of
it, up to the receiver's position as long as it runs. -/
structure Sound (f : Feed α capacity) : Prop where
  holds : f.channel.Holds f.sent
  taken_initial : f.taken <+: f.sent
  position : f.running = true → f.taken = f.sent.take f.next ∧ f.next ≤ f.sent.length

/-- At the start nothing has been sent, and the receiver is at the beginning. -/
theorem sound_init : (init : Feed α capacity).Sound :=
  ⟨BroadcastChannel.holds_empty, List.prefix_rfl, fun _ => ⟨rfl, le_rfl⟩⟩

/-- A send keeps what a receiver has taken an initial segment of what was sent, as it
only adds at the end. -/
theorem Sound.send (h : f.Sound) (x : α) :
    Sound { f with channel := f.channel.send x, sent := f.sent ++ [x] } := by
  refine ⟨h.holds.send x, h.taken_initial.trans (List.prefix_append _ _), fun hrunning => ?_⟩
  obtain ⟨htaken, hnext⟩ := h.position hrunning
  refine ⟨?_, ?_⟩
  · show f.taken = (f.sent ++ [x]).take f.next
    rw [List.take_append_of_le_length hnext, htaken]
  · show f.next ≤ (f.sent ++ [x]).length
    rw [List.length_append]
    omega

/-- A received message is the next one after those taken, because the receiver's
position is the number of messages that it has taken. -/
theorem Sound.message (h : f.Sound) (hrunning : f.running = true) {x : α} {next : Nat}
    (hrecv : f.channel.recv f.next = some (.message x, next)) :
    Sound { f with next := next, taken := f.taken ++ [x] } := by
  obtain ⟨hx, rfl⟩ := h.holds.recv_message hrecv
  obtain ⟨htaken, -⟩ := h.position hrunning
  obtain ⟨hlt, -⟩ := List.getElem?_eq_some_iff.mp hx
  -- The receiver is at the end of what it has taken, so `x` is the next message sent.
  have heq : f.taken ++ [x] = f.sent.take (f.next + 1) := by
    rw [List.take_add_one, hx, htaken]
    rfl
  refine ⟨h.holds, ?_, fun _ => ⟨heq, hlt⟩⟩
  show f.taken ++ [x] <+: f.sent
  rw [heq]
  exact List.take_prefix _ _

/-- A receiver that has not fallen behind gets the next message, as long as there is
one. This is the progress of a receiver, where `Sound` is its safety. -/
theorem Sound.exists_message (h : f.Sound) (hrunning : f.running = true)
    (hkept : f.channel.dropped ≤ f.next) (hmore : f.taken.length < f.sent.length) :
    ∃ x, f.channel.recv f.next = some (.message x, f.next + 1) ∧
      f.sent[f.taken.length]? = some x := by
  obtain ⟨htaken, hnext⟩ := h.position hrunning
  have hlength : f.taken.length = f.next := by
    rw [htaken, List.length_take]
    omega
  rw [hlength] at hmore ⊢
  refine ⟨f.sent[f.next], ?_, List.getElem?_eq_getElem hmore⟩
  have hbuffer : f.channel.buffer[f.next - f.channel.dropped]? = some f.sent[f.next] := by
    rw [h.holds.buffer, List.getElem?_drop, Nat.add_sub_cancel' hkept]
    exact List.getElem?_eq_getElem hmore
  rw [BroadcastChannel.recv, if_neg (Nat.not_lt.mpr hkept), hbuffer]

/-- One step keeps the invariant, whoever makes it. A sender appends, and the receiver
takes the next message or finds that it has fallen behind. -/
theorem Sound.step {e : FeedEvent α} (h : f.Sound) (hstep : f.step e = some f') : f'.Sound := by
  cases e with
  | send x =>
      cases hstep
      exact h.send x
  | close =>
      cases hstep
      exact ⟨⟨h.holds.buffer, h.holds.dropped_le⟩, h.taken_initial, h.position⟩
  | recv =>
      simp only [Feed.step] at hstep
      split at hstep
      · rename_i hrunning
        split at hstep
        · rename_i x next hrecv
          cases hstep
          exact h.message hrunning hrecv
        · cases hstep
          exact ⟨h.holds, h.taken_initial, fun hfalse => by cases hfalse⟩
        · cases hstep
      · cases hstep
  | stop =>
      cases hstep
      exact ⟨h.holds, h.taken_initial, fun hfalse => by cases hfalse⟩

/-- In every run of sends and receives, what the receiver has taken is an initial
segment of what was sent. -/
theorem run_sound {events : List (FeedEvent α)} (hrun : run step init events = some f) : f.Sound :=
  run_invariant (fun _ _ _ h hstep => h.step hstep) events _ _ sound_init hrun

/-- The receiver has stopped, or has fallen behind. -/
def Done (f : Feed α capacity) : Prop := f.running = false ∨ f.next < f.channel.dropped

/-- A receiver that has stopped takes no message any more, so what it has taken stays.
Sends go on without it. -/
theorem Done.step {e : FeedEvent α} (h : f.Done) (hstep : f.step e = some f') :
    f'.Done ∧ f'.taken = f.taken := by
  cases e with
  | send x =>
      cases hstep
      -- More sends leave it further behind.
      refine ⟨h.imp_right fun hlt => ?_, rfl⟩
      show f.next < f.channel.dropped + _
      omega
  | close =>
      cases hstep
      exact ⟨h, rfl⟩
  | recv =>
      simp only [Feed.step] at hstep
      split at hstep
      · rename_i hrunning
        -- It still runs, so it is behind, and the receive is the error that stops it.
        have hlt : f.next < f.channel.dropped := h.resolve_left (by simp [hrunning])
        rw [BroadcastChannel.recv_of_lt hlt] at hstep
        cases hstep
        exact ⟨Or.inl rfl, rfl⟩
      · cases hstep
  | stop =>
      cases hstep
      exact ⟨Or.inl rfl, rfl⟩

/-- Once the receiver has fallen behind it takes nothing more. -/
theorem run_done {events : List (FeedEvent α)} (h : f.Done) (hrun : run step f events = some f') :
    f'.taken = f.taken := by
  have hinvariant : f'.Done ∧ f'.taken = f.taken := by
    refine run_invariant (P := fun g : Feed α capacity => g.Done ∧ g.taken = f.taken)
      (fun g e g' hg hstep => ?_) events f f' ⟨h, rfl⟩ hrun
    obtain ⟨hdone, htaken⟩ := hg.1.step hstep
    exact ⟨hdone, htaken.trans hg.2⟩
  exact hinvariant.2

/-- A receive, after which the receiver may also stop by itself. It runs on only
after a message. -/
theorem exists_run_recv (hrunning : f.running = true) {received : Received α} {next : Nat}
    (hrecv : f.channel.recv f.next = some (received, next)) (running : Bool)
    (hmessage : running = true → received.message? ≠ none) :
    ∃ events, run step f events =
      some { f with next := next, taken := f.taken ++ received.message?.toList, running := running } := by
  have hstep : step f .recv = some { f with
      next := next
      taken := f.taken ++ received.message?.toList
      running := received.message?.isSome } := by
    cases received <;> simp [step, hrunning, hrecv, Received.message?]
  cases running with
  | true =>
      refine ⟨[.recv], ?_⟩
      rw [run_singleton, hstep, Option.isSome_iff_ne_none.mpr (hmessage rfl)]
  | false =>
      refine ⟨[.recv, .stop], ?_⟩
      rw [run_cons_eq_some]
      exact ⟨_, hstep, rfl⟩

/-- The sends of a list of messages. -/
theorem run_sendAll (xs : List α) (f : Feed α capacity) :
    run step f (xs.map .send) =
      some { f with channel := f.channel.sendAll xs, sent := f.sent ++ xs } := by
  induction xs generalizing f with
  | nil => simp [BroadcastChannel.sendAll]
  | cons x xs ih =>
      rw [List.map_cons, run_cons_eq_some]
      exact ⟨_, rfl, by rw [ih]; simp [BroadcastChannel.sendAll]⟩

end Feed

end ChainAlerter.Library
