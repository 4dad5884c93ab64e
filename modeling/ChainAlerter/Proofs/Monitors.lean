import ChainAlerter.Model.Process
import ChainAlerter.Proofs.CacheDepth
import ChainAlerter.Proofs.Events
import ChainAlerter.Proofs.Recovery

/-!
# `ChainAlerter.Proofs.Monitors`: the monitors skip no broadcast

Each monitor, with the channel and the messages that the listener has sent, shows as
a `Feed`: `step_moves` lists what a step of any task can do, and `step_feed` says
that each of these is a run of the feed. So what holds of every feed holds here, for
any order of sends and receives. A monitor receives an initial segment of what was
sent, and once its receiver has fallen behind it receives nothing more: it stays
behind until it is used, and then the error ends it (`run_of_behind`), and `main`
with it.

`step_actsOnTaken` ties the received messages to what a monitor does. Its state is that
of a run of its own loop, on these messages and no others.
-/

set_option autoImplicit false

namespace ChainAlerter

open ChainAlerter.Library

/-- Whether the event monitor still runs. -/
def EventsPhase.isRunning : EventsPhase → Bool
  | .waiting => true
  | .fetching _ _ => true
  | _ => false

/-- The message that an event brings. -/
def WatchEvent.message? : WatchEvent → Option BlocksExt
  | .recv (.ok blocksExt) => some blocksExt
  | _ => none

/-- The message that a reply brings to the event monitor. -/
def EventsReply.message? : EventsReply → Option BlocksExt
  | .recv (.ok blocksExt) => some blocksExt
  | _ => none

namespace Process

variable {capacity : Nat} {env : Externals} {eventEnv : EventExternals}
  {config : StallAndReorgConfig} {accounts : List Account} {p p' : Process capacity}

/-- A monitor with the channel and what was sent. -/
def feed (p : Process capacity) : Monitor → Feed BlocksExt capacity
  | .stallAndReorg =>
      { channel := p.channel, sent := p.listener.sent, next := p.watcherNext
        taken := p.watcherTaken, running := decide (p.watcher.status = .running) }
  | .events =>
      { channel := p.channel, sent := p.listener.sent, next := p.eventsNext
        taken := p.eventsTaken, running := p.eventWatcher.phase.isRunning }

/-- What the feed of a monitor has taken is what the monitor has. -/
@[simp] theorem taken_feed (p : Process capacity) (monitor : Monitor) :
    (p.feed monitor).taken = p.taken monitor := by
  cases monitor <;> rfl

/-- Both feeds carry the messages of the listener. -/
@[simp] theorem sent_feed (p : Process capacity) (monitor : Monitor) :
    (p.feed monitor).sent = p.listener.sent := by
  cases monitor <;> rfl

/-! ### The steps of the process -/

/-- The steps of `main`. -/
def isJoin : ProcessEvent → Bool
  | .joinListener _ => true
  | .joinMonitor _ _ => true
  | .joinOther _ => true
  | _ => false

/-- Everything that a step can do: the listener or a monitor makes a step of its own, or
`main` returns. -/
inductive Moves (env : Externals) (eventEnv : EventExternals) (config : StallAndReorgConfig)
    (p : Process capacity) : ProcessEvent → Process capacity → Prop where
  | listen (reply : Reply) (listener : Listener)
      (hstep : p.listener.step env reply = some listener)
      (channel : BroadcastChannel BlocksExt capacity)
      (hchannel : channel = p.channel.sendAll (listener.sent.drop p.listener.sent.length) ∨
        channel = (p.channel.sendAll (listener.sent.drop p.listener.sent.length)).close) :
      Moves env eventEnv config p (.listen reply)
        { p with listener := listener, channel := channel }
  | watcherRecv (received : Received BlocksExt) (next : Nat) (watcher : Watcher)
      (hrecv : p.channel.recv p.watcherNext = some (received, next))
      (hstep : p.watcher.step config (.recv (recvResult received)) = some watcher) :
      Moves env eventEnv config p (.recv .stallAndReorg)
        { p with
          watcher := watcher, watcherNext := next
          watcherTaken := p.watcherTaken ++ received.message?.toList }
  | eventsRecv (received : Received BlocksExt) (next : Nat) (eventWatcher : EventWatcher)
      (hrecv : p.channel.recv p.eventsNext = some (received, next))
      (hstep : p.eventWatcher.step eventEnv (.recv (recvResult received)) = some eventWatcher) :
      Moves env eventEnv config p (.recv .events)
        { p with
          eventWatcher := eventWatcher, eventsNext := next
          eventsTaken := p.eventsTaken ++ received.message?.toList }
  | elapsed (watcher : Watcher) (hstep : p.watcher.step config .elapsed = some watcher) :
      Moves env eventEnv config p .elapsed { p with watcher := watcher }
  | blockEvents (answer : Except SubxtError (List EventDetails)) (eventWatcher : EventWatcher)
      (hstep : p.eventWatcher.step eventEnv (.events answer) = some eventWatcher) :
      Moves env eventEnv config p (.blockEvents answer) { p with eventWatcher := eventWatcher }
  | returns (event : ProcessEvent) (hjoin : isJoin event = true) (result : Except Error Unit) :
      Moves env eventEnv config p event { p with exit := some result }

/-- A reply to the listener is a move of the process. The channel is closed with it when
the listener ends. -/
theorem listen_moves {reply : Reply} (h : p.listen env reply = some p') :
    Moves env eventEnv config p (.listen reply) p' := by
  simp only [listen, Option.bind_eq_bind, Option.bind_eq_some_iff] at h
  obtain ⟨listener, hstep, hp'⟩ := h
  cases hp'
  refine .listen reply listener hstep _ ?_
  split
  · exact Or.inr rfl
  · exact Or.inl rfl

/-- A receive is a move of the monitor that receives. The other one keeps its
position in the channel. -/
theorem recv_moves {monitor : Monitor} (h : p.recv eventEnv config monitor = some p') :
    Moves env eventEnv config p (.recv monitor) p' := by
  cases monitor with
  | stallAndReorg =>
      simp only [recv, Option.bind_eq_bind, Option.bind_eq_some_iff] at h
      obtain ⟨⟨received, next⟩, hrecv, watcher, hstep, hp'⟩ := h
      cases hp'
      exact .watcherRecv received next watcher hrecv hstep
  | events =>
      simp only [recv, Option.bind_eq_bind, Option.bind_eq_some_iff] at h
      obtain ⟨⟨received, next⟩, hrecv, eventWatcher, hstep, hp'⟩ := h
      cases hp'
      exact .eventsRecv received next eventWatcher hrecv hstep

/-- Everything a step of the process can do while `main` has not returned. The results
on the process are proved from these moves. -/
theorem step_moves {event : ProcessEvent} (h : p.step env eventEnv config event = some p') :
    Moves env eventEnv config p event p' := by
  unfold step at h
  split at h
  · cases h
  · cases event with
    | listen reply => exact listen_moves h
    | recv monitor => exact recv_moves h
    | elapsed =>
        obtain ⟨watcher, hstep, rfl⟩ := Option.map_eq_some_iff.mp h
        exact .elapsed watcher hstep
    | blockEvents answer =>
        obtain ⟨eventWatcher, hstep, rfl⟩ := Option.map_eq_some_iff.mp h
        exact .blockEvents answer eventWatcher hstep
    | joinListener err =>
        obtain ⟨result, -, rfl⟩ := Option.map_eq_some_iff.mp h
        exact .returns _ rfl result
    | joinMonitor monitor err =>
        obtain ⟨result, -, rfl⟩ := Option.map_eq_some_iff.mp h
        exact .returns _ rfl result
    | joinOther result =>
        cases h
        exact .returns _ rfl result

/-! ### The steps of the monitors -/

/-- Only an event monitor that runs makes a step. -/
theorem isRunning_of_step {w w' : EventWatcher} {reply : EventsReply}
    (h : w.step eventEnv reply = some w') : w.phase.isRunning = true := by
  unfold EventWatcher.step at h
  split at h
  · rename_i hphase; rw [hphase]; rfl
  · rename_i hphase; rw [hphase]; rfl
  · rename_i hphase; rw [hphase]; rfl
  · rename_i hphase; rw [hphase]; rfl
  · cases h

/-- A monitor that gets an error from the channel returns it. -/
theorem watcher_recv_error {w w' : Watcher} {err : RecvError}
    (h : w.step config (.recv (.error err)) = some w') :
    w'.status = .returned (.broadRecvErr err) := by
  cases (Watcher.step_round h).2 with
  | closed _ => rfl

/-- An error of the channel ends the event monitor with that error. It only receives
while it waits, so no block is half done. -/
theorem eventWatcher_recv_error {w w' : EventWatcher} {err : RecvError}
    (h : w.step eventEnv (.recv (.error err)) = some w') :
    w'.phase = .returned (.broadRecvErr err) := by
  unfold EventWatcher.step at h
  split at h
  · rename_i heq
    cases heq
  · rename_i heq
    cases heq
    cases h
    rfl
  · rename_i heq
    cases heq
  · rename_i heq
    cases heq
  · cases h

/-- Only a message lets a monitor run on. Both errors of a channel end it. -/
theorem message?_ne_none_of_running {received : Received BlocksExt} {w w' : Watcher}
    (h : w.step config (.recv (recvResult received)) = some w') (hrunning : w'.status = .running) :
    received.message? ≠ none := by
  cases received with
  | message blocksExt => exact Option.some_ne_none _
  | lagged skipped =>
      rw [watcher_recv_error h] at hrunning
      cases hrunning
  | closed =>
      rw [watcher_recv_error h] at hrunning
      cases hrunning

/-- An event monitor that still runs after a receive has got a message. -/
theorem message?_ne_none_of_isRunning {received : Received BlocksExt} {w w' : EventWatcher}
    (h : w.step eventEnv (.recv (recvResult received)) = some w')
    (hrunning : w'.phase.isRunning = true) : received.message? ≠ none := by
  cases received with
  | message blocksExt => exact Option.some_ne_none _
  | lagged skipped =>
      rw [eventWatcher_recv_error h] at hrunning
      cases hrunning
  | closed =>
      rw [eventWatcher_recv_error h] at hrunning
      cases hrunning

/-! ### Every step is a run of the feed -/

/-- A reply to the listener is, for the feed of each monitor, the sends of its new
messages, and the closing of the channel if the listener has ended. -/
theorem listen_feed {reply : Reply} {listener : Listener}
    {channel : BroadcastChannel BlocksExt capacity}
    (hstep : p.listener.step env reply = some listener)
    (hchannel : channel = p.channel.sendAll (listener.sent.drop p.listener.sent.length) ∨
      channel = (p.channel.sendAll (listener.sent.drop p.listener.sent.length)).close)
    (monitor : Monitor) :
    ∃ events, run Feed.step (p.feed monitor) events =
      some (({ p with listener := listener, channel := channel } :
        Process capacity).feed monitor) := by
  -- `sent` is what this step of the listener has added.
  obtain ⟨sent, hsent⟩ := Listener.sent_initial hstep
  rw [← hsent, List.drop_left] at hchannel
  have hsends := Feed.run_sendAll sent (p.feed monitor)
  rcases hchannel with rfl | rfl
  · refine ⟨sent.map .send, ?_⟩
    rw [hsends]
    cases monitor <;> simp [feed, hsent]
  · refine ⟨sent.map .send ++ [.close], ?_⟩
    rw [run_append_eq_some]
    refine ⟨_, hsends, ?_⟩
    cases monitor <;> simp [Feed.step, feed, hsent]

/-- What a step of any task does to a monitor's feed. The listener's messages are sends,
a receive of the monitor is a receive, and all other steps do nothing to it. -/
theorem step_feed {event : ProcessEvent} (h : p.step env eventEnv config event = some p')
    (monitor : Monitor) :
    ∃ events, run Feed.step (p.feed monitor) events = some (p'.feed monitor) := by
  cases step_moves h with
  | listen reply listener hstep channel hchannel => exact listen_feed hstep hchannel monitor
  | watcherRecv received next watcher hrecv hstep =>
      cases monitor with
      -- The other monitor does not notice.
      | events => exact ⟨[], rfl⟩
      | stallAndReorg =>
          have hrunning : (p.feed .stallAndReorg).running = true :=
            decide_eq_true (Watcher.step_round hstep).1
          exact Feed.exists_run_recv hrunning hrecv (decide (watcher.status = .running))
            fun hrun => message?_ne_none_of_running hstep (of_decide_eq_true hrun)
  | eventsRecv received next eventWatcher hrecv hstep =>
      cases monitor with
      | stallAndReorg => exact ⟨[], rfl⟩
      | events =>
          exact Feed.exists_run_recv (isRunning_of_step hstep) hrecv eventWatcher.phase.isRunning
            fun hrun => message?_ne_none_of_isRunning hstep hrun
  | elapsed watcher hstep =>
      -- The timeout leaves the status as it is.
      refine ⟨[], ?_⟩
      cases (Watcher.step_round hstep).2 with
      | elapsed => cases monitor <;> rfl
  | blockEvents answer eventWatcher hstep =>
      cases monitor with
      | stallAndReorg => exact ⟨[], rfl⟩
      | events =>
          -- An answer of the node can stop the monitor, without any receive.
          have hrunning := isRunning_of_step hstep
          cases hafter : eventWatcher.phase.isRunning with
          | true => exact ⟨[], by simp [feed, hrunning, hafter]⟩
          | false => exact ⟨[.stop], by simp [Feed.step, feed, hafter]⟩
  | returns _ hjoin result => exact ⟨[], by cases monitor <;> rfl⟩

/-- The start of the process is one of the feed, stopped already if the event monitor
panicked on an address. -/
theorem init_feed (capacity : Nat) (eventEnv : EventExternals) (accounts : List Account)
    (monitor : Monitor) :
    ∃ events, run Feed.step Feed.init events =
      some ((init eventEnv accounts : Process capacity).feed monitor) := by
  cases monitor with
  | stallAndReorg => exact ⟨[], rfl⟩
  | events =>
      cases hmap : accountMappedName eventEnv accounts with
      | some map =>
          refine ⟨[], ?_⟩
          simp only [feed, init, EventWatcher.init, hmap]
          rfl
      | none =>
          refine ⟨[.stop], ?_⟩
          simp only [feed, init, EventWatcher.init, hmap]
          rfl

/-- In every run, what a monitor has received is an initial segment of what the listener
has sent, whatever the others do. -/
theorem run_feed_sound {events : List ProcessEvent}
    (hrun : run (step env eventEnv config) (init eventEnv accounts) events = some p)
    (monitor : Monitor) : (p.feed monitor).Sound := by
  obtain ⟨first, hfirst⟩ := init_feed capacity eventEnv accounts monitor
  obtain ⟨rest, hrest⟩ := exists_run_view (fun q : Process capacity => q.feed monitor)
    (fun _ _ _ hstep => step_feed hstep monitor) events _ _ hrun
  exact Feed.run_sound (run_append_eq_some.mpr ⟨_, hfirst, hrest⟩)

/-- A monitor that has fallen behind, or has returned, takes nothing more. The next
receive gives it an error, and with that it ends. -/
theorem run_taken {later : List ProcessEvent} {monitor : Monitor}
    (h : p.Behind monitor ∨ ∃ err, p.Returned err monitor)
    (hrun : run (step env eventEnv config) p later = some p') :
    p'.taken monitor = p.taken monitor := by
  have hdone : (p.feed monitor).Done := by
    cases monitor with
    | stallAndReorg =>
        rcases h with h | ⟨err, h⟩
        · exact Or.inr h
        · refine Or.inl ?_
          show decide (p.watcher.status = .running) = false
          rw [show p.watcher.status = .returned err from h]
          rfl
    | events =>
        rcases h with h | ⟨err, h⟩
        · exact Or.inr h
        · refine Or.inl ?_
          show p.eventWatcher.phase.isRunning = false
          rw [show p.eventWatcher.phase = .returned err from h]
          rfl
  obtain ⟨events, hevents⟩ := exists_run_view (fun q : Process capacity => q.feed monitor)
    (fun _ _ _ hstep => step_feed hstep monitor) later _ _ hrun
  have htaken := Feed.run_done hdone hevents
  rw [taken_feed, taken_feed] at htaken
  exact htaken

/-! ### What the monitors act on -/

/-- The state of the monitor is that of a run of its own loop, which gets the
messages `taken`. -/
def WatcherActsOn (config : StallAndReorgConfig) (watcher : Watcher)
    (taken : List BlocksExt) : Prop :=
  ∃ events, run (Watcher.step config) Watcher.init events = some watcher ∧
    events.filterMap WatchEvent.message? = taken

/-- The event monitor is in a state of its own loop after these messages, with some
answers for the blocks of them. -/
@[inherit_doc WatcherActsOn]
def EventWatcherActsOn (eventEnv : EventExternals) (accounts : List Account)
    (eventWatcher : EventWatcher) (taken : List BlocksExt) : Prop :=
  ∃ replies, run (EventWatcher.step eventEnv) (EventWatcher.init eventEnv accounts) replies =
    some eventWatcher ∧ replies.filterMap EventsReply.message? = taken

/-- The monitor acts on the messages that it has received, and on no others. -/
def ActsOnTaken (eventEnv : EventExternals) (config : StallAndReorgConfig) (accounts : List Account)
    (p : Process capacity) : Monitor → Prop
  | .stallAndReorg => WatcherActsOn config p.watcher p.watcherTaken
  | .events => EventWatcherActsOn eventEnv accounts p.eventWatcher p.eventsTaken

/-- One event more. -/
theorem WatcherActsOn.step {event : WatchEvent} {taken : List BlocksExt}
    {watcher watcher' : Watcher}
    (h : WatcherActsOn config watcher taken) (hstep : watcher.step config event = some watcher') :
    WatcherActsOn config watcher' (taken ++ event.message?.toList) := by
  obtain ⟨events, hrun, htaken⟩ := h
  refine ⟨events ++ [event], ?_, ?_⟩
  · rw [run_append_eq_some]
    exact ⟨watcher, hrun, by rw [run_singleton, hstep]⟩
  · rw [List.filterMap_append, htaken]
    cases hmessage : event.message? <;> simp [hmessage]

/-- One step of the event monitor extends the run that led to it, by the message that it
received, if any. -/
theorem EventWatcherActsOn.step {reply : EventsReply} {taken : List BlocksExt}
    {eventWatcher eventWatcher' : EventWatcher}
    (h : EventWatcherActsOn eventEnv accounts eventWatcher taken)
    (hstep : eventWatcher.step eventEnv reply = some eventWatcher') :
    EventWatcherActsOn eventEnv accounts eventWatcher' (taken ++ reply.message?.toList) := by
  obtain ⟨replies, hrun, htaken⟩ := h
  refine ⟨replies ++ [reply], ?_, ?_⟩
  · rw [run_append_eq_some]
    exact ⟨eventWatcher, hrun, by rw [run_singleton, hstep]⟩
  · rw [List.filterMap_append, htaken]
    cases hmessage : reply.message? <;> simp [hmessage]

/-- A monitor that the step does not touch acts on the same messages. This settles all
steps of the other tasks at once. -/
theorem ActsOnTaken.congr {monitor : Monitor} (h : p.ActsOnTaken eventEnv config accounts monitor)
    (hwatcher : p'.watcher = p.watcher) (hwatcherTaken : p'.watcherTaken = p.watcherTaken)
    (hevents : p'.eventWatcher = p.eventWatcher) (heventsTaken : p'.eventsTaken = p.eventsTaken) :
    p'.ActsOnTaken eventEnv config accounts monitor := by
  cases monitor with
  | stallAndReorg =>
      show WatcherActsOn config p'.watcher p'.watcherTaken
      rw [hwatcher, hwatcherTaken]
      exact h
  | events =>
      show EventWatcherActsOn eventEnv accounts p'.eventWatcher p'.eventsTaken
      rw [hevents, heventsTaken]
      exact h

/-- The message in the event of a monitor is the one that came out of the channel. -/
theorem message?_recv_recvResult (received : Received BlocksExt) :
    (WatchEvent.recv (recvResult received)).message? = received.message? ∧
      (EventsReply.recv (recvResult received)).message? = received.message? := by
  cases received <;> exact ⟨rfl, rfl⟩

/-- One step of the process keeps that each monitor has acted on exactly the messages it
has taken. A step moves one of them at most. -/
theorem step_actsOnTaken {event : ProcessEvent} (h : p.step env eventEnv config event = some p')
    (hacts : ∀ monitor, p.ActsOnTaken eventEnv config accounts monitor) (monitor : Monitor) :
    p'.ActsOnTaken eventEnv config accounts monitor := by
  cases step_moves h with
  | listen reply listener hstep channel hchannel => exact (hacts monitor).congr rfl rfl rfl rfl
  | watcherRecv received next watcher hrecv hstep =>
      cases monitor with
      | events => exact hacts .events
      | stallAndReorg =>
          have hnext := WatcherActsOn.step (hacts .stallAndReorg) hstep
          rw [(message?_recv_recvResult received).1] at hnext
          exact hnext
  | eventsRecv received next eventWatcher hrecv hstep =>
      cases monitor with
      | stallAndReorg => exact hacts .stallAndReorg
      | events =>
          have hnext := EventWatcherActsOn.step (hacts .events) hstep
          rw [(message?_recv_recvResult received).2] at hnext
          exact hnext
  | elapsed watcher hstep =>
      cases monitor with
      | events => exact hacts .events
      | stallAndReorg =>
          have hnext := WatcherActsOn.step (hacts .stallAndReorg) hstep
          rw [show WatchEvent.elapsed.message?.toList = [] from rfl, List.append_nil] at hnext
          exact hnext
  | blockEvents answer eventWatcher hstep =>
      cases monitor with
      | stallAndReorg => exact hacts .stallAndReorg
      | events =>
          have hnext := EventWatcherActsOn.step (hacts .events) hstep
          rw [show (EventsReply.events answer).message?.toList = [] from rfl,
            List.append_nil] at hnext
          exact hnext
  | returns _ hjoin result => exact (hacts monitor).congr rfl rfl rfl rfl

/-- In every run, each monitor is in the state that its own loop reaches on the messages
it has taken. So the results on a monitor alone apply to it in the process. -/
theorem run_actsOnTaken {events : List ProcessEvent}
    (hrun : run (step env eventEnv config) (init eventEnv accounts) events = some p)
    (monitor : Monitor) : p.ActsOnTaken eventEnv config accounts monitor := by
  refine run_invariant (P := fun q : Process capacity =>
    ∀ monitor, q.ActsOnTaken eventEnv config accounts monitor)
    (fun _ _ _ hq hstep => step_actsOnTaken hstep hq) events _ _ (fun monitor => ?_) hrun monitor
  cases monitor <;> exact ⟨[], rfl, rfl⟩

/-! ### The end -/

/-- A receiver that has fallen behind ends its monitor, with the error that the channel
gives and not with a message. -/
theorem recv_of_behind {monitor : Monitor} (h : p.Behind monitor)
    (hstep : p.step env eventEnv config (.recv monitor) = some p') :
    ∃ skipped, p'.Returned (.broadRecvErr (.lagged skipped)) monitor := by
  cases step_moves hstep with
  | watcherRecv received next watcher hrecv hwatcher =>
      rw [BroadcastChannel.recv_of_lt (show p.watcherNext < p.channel.dropped from h)] at hrecv
      cases hrecv
      exact ⟨_, watcher_recv_error hwatcher⟩
  | eventsRecv received next eventWatcher hrecv hwatcher =>
      rw [BroadcastChannel.recv_of_lt (show p.eventsNext < p.channel.dropped from h)] at hrecv
      cases hrecv
      exact ⟨_, eventWatcher_recv_error hwatcher⟩
  -- A receive is no step of `main`.
  | returns _ hjoin result => cases hjoin

/-- A monitor that waits for a message can receive when it has fallen behind. -/
theorem exists_recv_of_behind {monitor : Monitor} (h : p.Behind monitor) (hwaits : p.Waits monitor)
    (hexit : p.exit = none) : ∃ p', p.step env eventEnv config (.recv monitor) = some p' := by
  cases monitor with
  | stallAndReorg =>
      have hrecv := BroadcastChannel.recv_of_lt (show p.watcherNext < p.channel.dropped from h)
      have hrunning : p.watcher.status = .running := hwaits
      refine Option.isSome_iff_exists.mp ?_
      simp [step, hexit, recv, hrecv, Watcher.step, recvResult, hrunning]
  | events =>
      have hrecv := BroadcastChannel.recv_of_lt (show p.eventsNext < p.channel.dropped from h)
      have hwaiting : p.eventWatcher.phase = .waiting := hwaits
      refine Option.isSome_iff_exists.mp ?_
      simp [step, hexit, recv, hrecv, EventWatcher.step, recvResult, hwaiting]

/-- A channel that has sent more has not overwritten less. -/
theorem dropped_le_of_listen {sent : List BlocksExt} {channel : BroadcastChannel BlocksExt capacity}
    (h : channel = p.channel.sendAll sent ∨ channel = (p.channel.sendAll sent).close) :
    p.channel.dropped ≤ channel.dropped := by
  rcases h with rfl | rfl
  · exact BroadcastChannel.dropped_le_sendAll _ _
  · exact BroadcastChannel.dropped_le_sendAll p.channel sent

/-- A receiver stays behind until it is used. What has been overwritten does not come
back, and the first use ends the monitor. -/
theorem step_of_behind {event : ProcessEvent} {monitor : Monitor} (h : p.Behind monitor)
    (hstep : p.step env eventEnv config event = some p') :
    p'.Behind monitor ∨ ∃ skipped, p'.Returned (.broadRecvErr (.lagged skipped)) monitor := by
  by_cases hevent : event = .recv monitor
  · rw [hevent] at hstep
    exact Or.inr (recv_of_behind h hstep)
  · refine Or.inl ?_
    cases step_moves hstep with
    | listen reply listener _ channel hchannel =>
        have hle := dropped_le_of_listen hchannel
        cases monitor <;> exact Nat.lt_of_lt_of_le h hle
    | watcherRecv received next watcher _ _ =>
        cases monitor with
        | stallAndReorg => exact absurd rfl hevent
        | events => exact h
    | eventsRecv received next eventWatcher _ _ =>
        cases monitor with
        | stallAndReorg => exact h
        | events => exact absurd rfl hevent
    | elapsed watcher _ => cases monitor <;> exact h
    | blockEvents answer eventWatcher _ => cases monitor <;> exact h
    | returns _ _ result => cases monitor <;> exact h

/-- A monitor that has returned makes no step, so it keeps its error until `main` joins it. -/
theorem step_of_returned {event : ProcessEvent} {monitor : Monitor} {err : Error}
    (h : p.Returned err monitor) (hstep : p.step env eventEnv config event = some p') :
    p'.Returned err monitor := by
  have hwatcher : monitor = .stallAndReorg → p.watcher.status ≠ .running := by
    rintro rfl hrunning
    cases hrunning.symm.trans h
  have hevents : monitor = .events → p.eventWatcher.phase.isRunning ≠ true := by
    rintro rfl hrunning
    rw [show p.eventWatcher.phase = .returned err from h] at hrunning
    cases hrunning
  cases step_moves hstep with
  | listen reply listener _ channel _ => cases monitor <;> exact h
  | watcherRecv received next watcher _ hmove =>
      cases monitor with
      | stallAndReorg => exact absurd (Watcher.step_round hmove).1 (hwatcher rfl)
      | events => exact h
  | eventsRecv received next eventWatcher _ hmove =>
      cases monitor with
      | stallAndReorg => exact h
      | events => exact absurd (isRunning_of_step hmove) (hevents rfl)
  | elapsed watcher hmove =>
      cases monitor with
      | stallAndReorg => exact absurd (Watcher.step_round hmove).1 (hwatcher rfl)
      | events => exact h
  | blockEvents answer eventWatcher hmove =>
      cases monitor with
      | stallAndReorg => exact h
      | events => exact absurd (isRunning_of_step hmove) (hevents rfl)
  | returns _ _ result => cases monitor <;> exact h

/-- From the moment a receiver falls behind, it is behind or its monitor has
returned the error. -/
theorem run_of_behind {later : List ProcessEvent} {monitor : Monitor} (h : p.Behind monitor)
    (hrun : run (step env eventEnv config) p later = some p') :
    p'.Behind monitor ∨ ∃ skipped, p'.Returned (.broadRecvErr (.lagged skipped)) monitor := by
  refine run_invariant (P := fun q : Process capacity =>
    q.Behind monitor ∨ ∃ skipped, q.Returned (.broadRecvErr (.lagged skipped)) monitor)
    (fun q event q' hq hstep => ?_) later p p' (Or.inl h) hrun
  rcases hq with hbehind | ⟨skipped, hreturned⟩
  · exact step_of_behind hbehind hstep
  · exact Or.inr ⟨skipped, step_of_returned hreturned hstep⟩

/-- `main` joins a monitor that has returned, and returns its error. Nothing else has to
happen before it. -/
theorem join_of_returned {monitor : Monitor} {err : Error} (h : p.Returned err monitor)
    (hexit : p.exit = none) (joinErr : ForeignError) :
    p.step env eventEnv config (.joinMonitor monitor joinErr) =
      some { p with exit := some (.error err) } := by
  cases monitor with
  | stallAndReorg =>
      simp [step, hexit, monitorJoined, show p.watcher.status = .returned err from h,
        WatchStatus.joined]
  | events =>
      simp [step, hexit, monitorJoined, show p.eventWatcher.phase = .returned err from h,
        EventsPhase.joined]

/-- Once `main` has returned, no task makes a step. -/
theorem step_of_exit (h : p.exit ≠ none) (event : ProcessEvent) :
    p.step env eventEnv config event = none := by
  simp [step, Option.isSome_iff_ne_none.mpr h]

end Process

/-- The monitors skip no broadcast. For a channel of any capacity, in every state that the process
reaches by any interleaving of its tasks, and for both monitors:

- the messages that the monitor has received are an initial segment of those sent, in their
  order;
- they are the messages it has acted on: its state is that of a run of its own loop on them;
- once its receiver has fallen behind, or it has returned, it receives no message any more;
- a receiver that has fallen behind stays behind until it is used, and then its monitor has
  returned `BroadRecvErr`; it can be used whenever the monitor waits for a message;
- `main` can join a monitor that has returned, with its error, and nothing happens after that. -/
theorem monitors_skip_no_broadcast (capacity : Nat) (env : Externals) (eventEnv : EventExternals)
    (config : StallAndReorgConfig) (accounts : List Account) (events : List ProcessEvent)
    (p : Process capacity)
    (hrun : run (Process.step env eventEnv config) (Process.init eventEnv accounts) events = some p)
    (monitor : Monitor) :
    p.taken monitor <+: p.listener.sent ∧
    p.ActsOnTaken eventEnv config accounts monitor ∧
    ((p.Behind monitor ∨ ∃ err, p.Returned err monitor) →
      ∀ later p', run (Process.step env eventEnv config) p later = some p' →
        p'.taken monitor = p.taken monitor) ∧
    (p.Behind monitor →
      (∀ later p', run (Process.step env eventEnv config) p later = some p' →
        p'.Behind monitor ∨ ∃ skipped, p'.Returned (.broadRecvErr (.lagged skipped)) monitor) ∧
      (∀ p', p.step env eventEnv config (.recv monitor) = some p' →
        ∃ skipped, p'.Returned (.broadRecvErr (.lagged skipped)) monitor) ∧
      (p.Waits monitor → p.exit = none →
        ∃ p', p.step env eventEnv config (.recv monitor) = some p')) ∧
    (∀ err, p.Returned err monitor → p.exit = none → ∀ joinErr, ∃ p',
      p.step env eventEnv config (.joinMonitor monitor joinErr) = some p' ∧
        p'.exit = some (.error err)) ∧
    (p.exit ≠ none → ∀ event, p.step env eventEnv config event = none) := by
  refine ⟨?_, Process.run_actsOnTaken hrun monitor, fun h later p' hlater => ?_,
    fun h => ⟨?_, ?_, ?_⟩, fun err h hexit joinErr => ?_,
    fun h event => Process.step_of_exit h event⟩
  · have hsound := (Process.run_feed_sound hrun monitor).taken_initial
    rw [Process.taken_feed, Process.sent_feed] at hsound
    exact hsound
  · exact Process.run_taken h hlater
  · exact fun later p' hlater => Process.run_of_behind h hlater
  · exact fun p' hstep => Process.recv_of_behind h hstep
  · exact Process.exists_recv_of_behind h
  · exact ⟨_, Process.join_of_returned h hexit joinErr, rfl⟩

/-- The listener sends for two blocks. The event monitor receives the first message
before the second one is sent, and the stall and reorg monitor receives nothing. -/
def lagEvents : List ProcessEvent :=
  (sessionReplies 1).map .listen ++
    [.listen (.next (some (.ok (chainItem 2)))),
     .listen (.blockHash (.ok (some (chainItem 2).hash))), .recv .events,
     .listen (.next (some (.ok (chainItem 3)))),
     .listen (.blockHash (.ok (some (chainItem 3).hash)))]

/-- With a channel of one message the stall and reorg monitor has then fallen behind.
Its next receive ends it, and the event monitor is one message behind what was sent. -/
theorem monitors_skip_no_broadcast_lag :
    ∃ p : Process 1, run (Process.step walkExternals sampleExternals defaultStallAndReorgConfig)
        (Process.init sampleExternals sampleAccounts) lagEvents = some p ∧
      p.listener.sent.length = 2 ∧ p.Behind .stallAndReorg ∧
      (p.taken .events).length = 1 ∧ p.taken .events <+: p.listener.sent ∧
      ∃ p', p.step walkExternals sampleExternals defaultStallAndReorgConfig (.recv .stallAndReorg) =
          some p' ∧
        ∃ skipped, p'.Returned (.broadRecvErr (.lagged skipped)) .stallAndReorg := by
  have heval : ((run (Process.step walkExternals sampleExternals defaultStallAndReorgConfig)
      (Process.init sampleExternals sampleAccounts : Process 1) lagEvents).map fun p =>
        (p.listener.sent.length, p.watcherNext, p.channel.dropped, p.eventsTaken.length,
          decide (p.watcher.status = .running), p.exit.isNone)) =
      some (2, 0, 1, 1, true, true) := by
    decide +kernel
  simp only [Option.map_eq_some_iff, Prod.mk.injEq, decide_eq_true_eq,
    Option.isNone_iff_eq_none] at heval
  obtain ⟨p, hrun, hsent, hnext, hdropped, htaken, hrunning, hexit⟩ := heval
  have hbehind : p.Behind .stallAndReorg := by
    show p.watcherNext < p.channel.dropped
    omega
  have hstall := monitors_skip_no_broadcast 1 walkExternals sampleExternals
    defaultStallAndReorgConfig sampleAccounts lagEvents p hrun .stallAndReorg
  have hevents := monitors_skip_no_broadcast 1 walkExternals sampleExternals
    defaultStallAndReorgConfig sampleAccounts lagEvents p hrun .events
  obtain ⟨-, hreturns, hreceives⟩ := hstall.2.2.2.1 hbehind
  obtain ⟨p', hstep⟩ := hreceives hrunning hexit
  exact ⟨p, hrun, hsent, hbehind, htaken, hevents.1, p', hstep, hreturns p' hstep⟩

end ChainAlerter
