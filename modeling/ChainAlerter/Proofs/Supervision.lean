import ChainAlerter.Model.Main
import ChainAlerter.Proofs.Delivery

/-!
# `ChainAlerter.Proofs.Supervision`: when `main` returns, and with what

`main` spawns its tasks into one join set and returns with the first of them that ends.
No task is started again. `main_supervises_tasks` is what this comes to, in every
interleaving, from the start of `main`: a `main` that has returned has the result of a
task that has ended, or the error of its own start, and a task that has ended stays so,
and `main` can return its result at any time until it has returned.

It returns `Ok` only with the runtime updates. All other tasks end with an error.
-/

set_option autoImplicit false

namespace ChainAlerter

open ChainAlerter.Library

/-! ### A task that makes a step has not ended -/

/-- A listener that makes a step has not ended, so a join of its task has no result. A
task that has ended keeps its result for the same reason: it makes no step any more. -/
theorem Listener.joined_of_step {env : Externals} {l l' : Listener} {reply : Reply}
    (h : l.step env reply = some l') (err : ForeignError) : l.phase.joined err = none := by
  cases hphase : l.phase with
  | returned e => simp [Listener.step, hphase] at h
  | panicked => simp [Listener.step, hphase] at h
  | _ => rfl

/-- A block monitor that makes a step has not ended. -/
theorem Watcher.joined_of_step {config : StallAndReorgConfig} {w w' : Watcher} {event : WatchEvent}
    (h : w.step config event = some w') (err : ForeignError) : w.status.joined err = none := by
  rw [(step_round h).1]
  rfl

/-- An event monitor that makes a step has not ended. -/
theorem EventWatcher.joined_of_step {env : EventExternals} {w w' : EventWatcher}
    {reply : EventsReply}
    (h : w.step env reply = some w') (err : ForeignError) : w.phase.joined err = none := by
  cases hphase : w.phase with
  | returned e => simp [EventWatcher.step, hphase] at h
  | panicked => simp [EventWatcher.step, hphase] at h
  | _ => rfl

/-- A slot monitor that makes a step has not ended. -/
theorem SlotMonitor.joined_of_step {config : SlotsConfig} {m m' : SlotMonitor} {event : SlotEvent}
    (h : m.step config event = some m') (err : ForeignError) : m.status.joined err = none := by
  rw [(step_round h).1]
  rfl

/-- A Slack task that makes a step has not ended, whichever of its phases it is in. -/
theorem SlackTask.joined_of_step {env : FormatExternals} {config : FormatConfig}
    {slack : SlackAlerter} {task task' : SlackTask} {event : SlackEvent}
    (h : task.step env config slack event = some task') (err : ForeignError) :
    task.phase.joined err = none := by
  have hend := isEnd_of_step h
  cases hphase : task.phase with
  | returned e => rw [hphase] at hend; cases hend
  | panicked => rw [hphase] at hend; cases hend
  | _ => rfl

/-- A push task that makes a step has not ended. -/
theorem UptimeTask.joined_of_step {url : String} {every : Nat} {task task' : UptimeTask}
    {event : UptimeEvent} (h : task.step url every event = some task') (err : ForeignError) :
    task.phase.joined err = none := by
  cases hphase : task.phase with
  | returned e => simp [UptimeTask.step, hphase] at h
  | panicked => simp [UptimeTask.step, hphase] at h
  | _ => rfl

/-! ### The tasks of the alerter -/

namespace Process

variable {capacity : Nat} {env : Externals} {eventEnv : EventExternals}
  {config : StallAndReorgConfig} {p p' : Process capacity} {event : ProcessEvent}

/-- A step of the process leaves the result of the listener's task as it is, or the task
had none yet. So a result never changes once it is there. -/
theorem step_listener_joined_eq (h : p.step env eventEnv config event = some p')
    (err : ForeignError) :
    p'.listener.phase.joined err = p.listener.phase.joined err ∨
      p.listener.phase.joined err = none := by
  cases step_moves h with
  | listen reply listener hstep channel hchannel => exact Or.inr (Listener.joined_of_step hstep err)
  | _ => exact Or.inl rfl

/-- The same for the two monitors of the process. Each kind of step belongs to one of
them at most, and the other one's result stays. -/
theorem step_monitorJoined_eq (h : p.step env eventEnv config event = some p') (err : ForeignError)
    (which : Monitor) :
    p'.monitorJoined err which = p.monitorJoined err which ∨ p.monitorJoined err which = none := by
  cases step_moves h with
  | watcherRecv received next watcher hrecv hstep =>
      cases which with
      | stallAndReorg => exact Or.inr (Watcher.joined_of_step hstep err)
      | events => exact Or.inl rfl
  | eventsRecv received next eventWatcher hrecv hstep =>
      cases which with
      | stallAndReorg => exact Or.inl rfl
      | events => exact Or.inr (EventWatcher.joined_of_step hstep err)
  | elapsed watcher hstep =>
      cases which with
      | stallAndReorg => exact Or.inr (Watcher.joined_of_step hstep err)
      | events => exact Or.inl rfl
  | blockEvents answer eventWatcher hstep =>
      cases which with
      | stallAndReorg => exact Or.inl rfl
      | events => exact Or.inr (EventWatcher.joined_of_step hstep err)
  | _ => cases which <;> exact Or.inl rfl

end Process

namespace Alerter

variable {capacity : Nat} {setup : Setup} {a a' : Alerter capacity}

/-- `main` has returned. -/
def setExit (a : Alerter capacity) (result : Except Error Unit) : Alerter capacity :=
  { a with process := { a.process with exit := some result } }

/-- The return of `main` changes the result of no task. -/
theorem joined_setExit (a : Alerter capacity) (result : Except Error Unit) (err : ForeignError)
    (task : AlerterTask) : (a.setExit result).joined err task = a.joined err task := by
  cases task with
  | monitor which => cases which <;> rfl
  | _ => rfl

/-- The two ways to write the return of `main` are the same: through the process, as its
step does, and directly. -/
theorem setProcess_exit (a : Alerter capacity) (result : Except Error Unit) :
    a.setProcess { a.process with exit := some result } = a.setExit result := by
  simp [setProcess, setExit]

/-- What a step has to do with the return of `main`. -/
inductive Exits (a : Alerter capacity) : AlerterEvent → Alerter capacity → Prop where
  | waits (event : AlerterEvent) (a' : Alerter capacity) (hexit : a'.process.exit = none) :
      Exits a event a'
  | joins (task : AlerterTask) (err : ForeignError) (result : Except Error Unit)
      (hjoined : a.joined err task = some result) : Exits a (task.join err) (a.setExit result)
  | other (result : Except Error Unit) : Exits a (.process (.joinOther result)) (a.setExit result)

/-- After a step `main` still waits, or the step joined a task that has ended, or it is
the join of a task that the alerter does not know. These are the only ways in which
`main` returns once the tasks run. -/
theorem step_exits {event : AlerterEvent} (h : a.step setup event = some a') :
    Exits a event a' := by
  obtain ⟨hexit, hmoves⟩ := step_moves h
  cases hmoves with
  | process event process hstep =>
      cases event with
      | joinListener err =>
          simp only [Process.step, hexit, Option.isSome_none, Bool.false_eq_true, if_false,
            Option.map_eq_some_iff] at hstep
          obtain ⟨result, hjoined, rfl⟩ := hstep
          rw [setProcess_exit]
          exact .joins .listener err result hjoined
      | joinMonitor monitor err =>
          simp only [Process.step, hexit, Option.isSome_none, Bool.false_eq_true, if_false,
            Option.map_eq_some_iff] at hstep
          obtain ⟨result, hjoined, rfl⟩ := hstep
          rw [setProcess_exit]
          exact .joins (.monitor monitor) err result hjoined
      | joinOther result =>
          simp only [Process.step, hexit, Option.isSome_none, Bool.false_eq_true, if_false,
            Option.some.injEq] at hstep
          rw [← hstep, setProcess_exit]
          exact .other result
      | _ =>
          refine .waits _ _ ?_
          cases Process.step_moves hstep with
          | returns event hjoin result => cases hjoin
          | _ => exact hexit
  | joinSlots err result hjoined => exact .joins .slots err result hjoined
  | joinSlack err result hjoined => exact .joins .slack err result hjoined
  | _ => exact .waits _ _ hexit

/-- A task that has ended can be joined. -/
theorem step_join (hexit : a.process.exit = none) {task : AlerterTask} {err : ForeignError}
    {result : Except Error Unit} (hjoined : a.joined err task = some result) :
    a.step setup (task.join err) = some (a.setExit result) := by
  cases task with
  | listener =>
      have hjoined : a.process.listener.phase.joined err = some result := hjoined
      simp [step, hexit, AlerterTask.join, processStep, Process.step, hjoined, setProcess_exit]
  | monitor which =>
      have hjoined : a.process.monitorJoined err which = some result := hjoined
      simp [step, hexit, AlerterTask.join, processStep, Process.step, hjoined, setProcess_exit]
  | slots =>
      have hjoined : a.slotMonitor.status.joined err = some result := hjoined
      simp [step, hexit, AlerterTask.join, hjoined, processStep_joinOther hexit, setExit]
  | slack =>
      have hjoined : a.slack.phase.joined err = some result := hjoined
      simp [step, hexit, AlerterTask.join, hjoined, processStep_joinOther hexit, setExit]

/-- A step changes the end of a task only while the task runs. Each kind of step belongs
to one task, and a task that has ended makes none. -/
theorem step_joined_eq {event : AlerterEvent} (h : a.step setup event = some a')
    (err : ForeignError) (task : AlerterTask) :
    a'.joined err task = a.joined err task ∨ a.joined err task = none := by
  cases (step_moves h).2 with
  | process event process hstep =>
      cases task with
      | listener => exact Process.step_listener_joined_eq hstep err
      | monitor which => exact Process.step_monitorJoined_eq hstep err which
      | _ => exact Or.inl rfl
  | recvSlot received next slotMonitor hrecv hstep =>
      cases task with
      | slots => exact Or.inr (SlotMonitor.joined_of_step hstep err)
      | monitor which => cases which <;> exact Or.inl rfl
      | _ => exact Or.inl rfl
  | slotElapsed slotMonitor hstep =>
      cases task with
      | slots => exact Or.inr (SlotMonitor.joined_of_step hstep err)
      | _ => exact Or.inl rfl
  | session result slack hstep =>
      cases task with
      | slack => exact Or.inr (SlackTask.joined_of_step hstep err)
      | _ => exact Or.inl rfl
  | recvAlert alert queue slack hqueue hstep =>
      cases task with
      | slack => exact Or.inr (SlackTask.joined_of_step hstep err)
      | _ => exact Or.inl rfl
  | posted result slack hstep =>
      cases task with
      | slack => exact Or.inr (SlackTask.joined_of_step hstep err)
      | _ => exact Or.inl rfl
  | joinSlots _ result _ => exact Or.inl (joined_setExit a result err task)
  | joinSlack _ result _ => exact Or.inl (joined_setExit a result err task)
  | network event => cases task <;> exact Or.inl rfl

/-- No task of the alerter ends well. Their loops are left with an error or a panic only. -/
theorem joined_ne_ok (a : Alerter capacity) (err : ForeignError) (task : AlerterTask) :
    a.joined err task ≠ some (.ok ()) := by
  cases task with
  | listener => simp only [joined]; cases a.process.listener.phase <;> simp [Phase.joined]
  | monitor which =>
      cases which with
      | stallAndReorg =>
          simp only [joined, Process.monitorJoined]
          cases a.process.watcher.status <;> simp [WatchStatus.joined]
      | events =>
          simp only [joined, Process.monitorJoined]
          cases a.process.eventWatcher.phase <;> simp [EventsPhase.joined]
  | slots => simp only [joined]; cases a.slotMonitor.status <;> simp [WatchStatus.joined]
  | slack => simp only [joined]; cases a.slack.phase <;> simp [SlackPhase.joined]

end Alerter

/-! ### The steps of `main` -/

namespace Main

variable {capacity : Nat} {externals : MainExternals} {config : Config} {m m' : Main capacity}

/-- Everything that a step can do. -/
inductive Moves (externals : MainExternals) (config : Config) (m : Main capacity) :
    MainEvent → Main capacity → Prop where
  | start (phase : StartPhase) (event : StartEvent) (m' : Main capacity)
      (hphase : m.phase = .start phase)
      (hstep : m.startStep externals config phase event = some m') :
      Moves externals config m (.start event) m'
  | updates (result : Option (Except SubxtError Unit)) (status : TaskStatus)
      (hrunning : m.updates = some .running) :
      Moves externals config m (.updates result) { m with updates := some status }
  | uptime (setup : Setup) (secret : SlackSecret) (url : String) (task task' : UptimeTask)
      (alerter : Alerter capacity) (event : UptimeEvent)
      (hphase : m.phase = .running setup secret (some task) alerter)
      (hstep : task.step url config.uptimekuma.uptimekumaInterval event = some task') :
      Moves externals config m (.uptime event)
        { m with phase := .running setup secret (some task') alerter }
  | alerter (setup : Setup) (secret : SlackSecret) (uptime : Option UptimeTask)
      (alerter alerter' : Alerter capacity) (event : AlerterEvent)
      (hphase : m.phase = .running setup secret uptime alerter) (hjoin : event.isJoinOther = false)
      (hstep : alerter.step setup event = some alerter') :
      Moves externals config m (.alerter event)
        { m with phase := .running setup secret uptime alerter' }
  | join (task : Task) (setup : Setup) (secret : SlackSecret) (uptime : Option UptimeTask)
      (alerter : Alerter capacity) (err : ForeignError) (result : Except Error Unit)
      (hphase : m.phase = .running setup secret uptime alerter)
      (hjoined : m.joined err task = some result) :
      Moves externals config m (task.join err)
        { m with phase := .running setup secret uptime (alerter.setExit result) }

/-- The join of a task that is not one of the alerter. -/
theorem alerter_step_joinOther {setup : Setup} {alerter : Alerter capacity}
    (hexit : alerter.process.exit = none) (result : Except Error Unit) :
    alerter.step setup (.process (.joinOther result)) = some (alerter.setExit result) := by
  simp [Alerter.step, hexit, Alerter.processStep_joinOther hexit, Alerter.setExit]

/-- Everything that a step of `main` can do, with the guards of each kind: a step of the
start, of one task, or the join of a task that has ended. A step is only made while
`main` has not returned. All invariants of `main` go by these cases. -/
theorem step_moves {event : MainEvent} (h : m.step externals config event = some m') :
    m.exit = none ∧ Moves externals config m event m' := by
  unfold step at h
  split at h
  · cases h
  · rename_i hexit
    have hexit : m.exit = none := by simpa using hexit
    refine ⟨hexit, ?_⟩
    split at h
    · cases h
    · rename_i phase event hphase
      exact .start phase event m' hphase h
    · unfold endUpdates at h
      split at h
      · rename_i hrunning
        cases h
        exact .updates _ _ hrunning
      · cases h
    · rename_i setup secret task alerter event hphase
      simp only [Option.bind_eq_bind, Option.bind_eq_some_iff] at h
      obtain ⟨url, -, task', hstep, hm'⟩ := h
      cases hm'
      exact .uptime setup secret url task task' alerter event hphase hstep
    · rename_i setup secret uptime alerter event hphase
      split at h
      · cases h
      · rename_i hjoin
        obtain ⟨alerter', hstep, rfl⟩ := Option.map_eq_some_iff.mp h
        exact .alerter setup secret uptime alerter alerter' event hphase (by simpa using hjoin)
          hstep
    · rename_i setup secret uptime alerter err hphase
      simp only [Option.bind_eq_bind, Option.bind_eq_some_iff] at h
      obtain ⟨result, hjoined, alerter', hstep, hm'⟩ := h
      simp only [exit, hphase] at hexit
      rw [alerter_step_joinOther hexit] at hstep
      cases hstep
      cases hm'
      refine .join .updates setup secret uptime alerter err result hphase ?_
      simp only [joined, hphase]
      exact Option.bind_eq_some_iff.mpr hjoined
    · rename_i setup secret task alerter err hphase
      simp only [Option.bind_eq_bind, Option.bind_eq_some_iff] at h
      obtain ⟨result, hjoined, alerter', hstep, hm'⟩ := h
      simp only [exit, hphase] at hexit
      rw [alerter_step_joinOther hexit] at hstep
      cases hstep
      cases hm'
      refine .join .uptime setup secret (some task) alerter err result hphase ?_
      simp only [joined, hphase]
      exact hjoined
    · cases h

/-! ### The ends of the tasks -/

section
variable {setup : Setup} {secret : SlackSecret} {uptime : Option UptimeTask}
  {alerter : Alerter capacity} {err : ForeignError}

/-- While the tasks run, the result of the runtime updates is that of their own status. -/
theorem joined_updates (hphase : m.phase = .running setup secret uptime alerter) :
    m.joined err .updates = m.updates.bind (TaskStatus.joined err) := by
  simp only [joined, hphase]

/-- While the tasks run, the result of the push task is that of its phase, if the task
was started at all. -/
theorem joined_uptime (hphase : m.phase = .running setup secret uptime alerter) :
    m.joined err .uptime = uptime.bind fun task => task.phase.joined err := by
  simp only [joined, hphase]

/-- While the tasks run, the results of the alerter's own tasks are those of the alerter. -/
theorem joined_alerter (hphase : m.phase = .running setup secret uptime alerter)
    (task : AlerterTask) :
    m.joined err (.alerter task) = alerter.joined err task := by
  simp only [joined, hphase]

/-- The return of `main` is no end of a task. -/
theorem joined_setExit (hphase : m.phase = .running setup secret uptime alerter)
    (result : Except Error Unit) (task : Task) :
    Main.joined { m with phase := .running setup secret uptime (alerter.setExit result) } err task =
      m.joined err task := by
  cases task with
  | updates => rw [joined_updates hphase, joined_updates rfl]
  | uptime => rw [joined_uptime hphase, joined_uptime rfl]
  | alerter task => rw [joined_alerter hphase, joined_alerter rfl, Alerter.joined_setExit]

end

/-- There are tasks only once they are spawned. -/
theorem exists_running_of_joined {task : Task} {err : ForeignError} {result : Except Error Unit}
    (h : m.joined err task = some result) :
    ∃ setup secret uptime alerter, m.phase = .running setup secret uptime alerter := by
  cases hphase : m.phase with
  | running setup secret uptime alerter => exact ⟨setup, secret, uptime, alerter, rfl⟩
  | _ => simp [joined, hphase] at h

/-- A task that has ended stays so. The steps of `main` after it can be those of other
tasks, or a join, and neither changes the result. -/
theorem step_joined {event : MainEvent} (h : m.step externals config event = some m') {task : Task}
    {err : ForeignError} {result : Except Error Unit} (hjoined : m.joined err task = some result) :
    m'.joined err task = some result := by
  obtain ⟨setup, secret, uptime, alerter, hrunning⟩ := exists_running_of_joined hjoined
  cases (step_moves h).2 with
  | start phase event m' hphase hstep =>
      rw [hrunning] at hphase
      cases hphase
  | updates _ status hupdates =>
      cases task with
      | updates =>
          rw [joined_updates hrunning, hupdates] at hjoined
          cases hjoined
      | uptime =>
          rw [joined_uptime hrunning] at hjoined
          rwa [joined_uptime (m := { m with updates := some status }) hrunning]
      | alerter task =>
          rw [joined_alerter hrunning] at hjoined
          rwa [joined_alerter (m := { m with updates := some status }) hrunning]
  | uptime _ _ url task₁ task₂ _ event hphase hstep =>
      cases task with
      | updates => rwa [joined_updates hphase] at hjoined
      | uptime =>
          rw [joined_uptime hphase, Option.bind_some, UptimeTask.joined_of_step hstep] at hjoined
          cases hjoined
      | alerter task =>
          rw [joined_alerter hphase] at hjoined
          rwa [joined_alerter rfl]
  | alerter _ _ _ alerter₁ alerter₂ event hphase hjoin hstep =>
      cases task with
      | updates => rwa [joined_updates hphase] at hjoined
      | uptime =>
          rw [joined_uptime hphase] at hjoined
          rwa [joined_uptime rfl]
      | alerter task =>
          rw [joined_alerter hphase] at hjoined
          rw [joined_alerter rfl]
          rcases Alerter.step_joined_eq hstep err task with hsame | hnone
          · rw [hsame, hjoined]
          · rw [hnone] at hjoined
            cases hjoined
  | join _ _ _ _ _ _ result' hphase _ => rwa [joined_setExit hphase]

/-- A task that has ended can be joined while `main` waits, and its result is then the
one of `main`. -/
theorem step_join (hexit : m.exit = none) {task : Task} {err : ForeignError}
    {result : Except Error Unit} (hjoined : m.joined err task = some result) :
    ∃ m', m.step externals config (task.join err) = some m' ∧ m'.exit = some result := by
  obtain ⟨setup, secret, uptime, alerter, hphase⟩ := exists_running_of_joined hjoined
  have hnone : alerter.process.exit = none := by simpa only [exit, hphase] using hexit
  refine ⟨{ m with phase := .running setup secret uptime (alerter.setExit result) }, ?_, rfl⟩
  cases task with
  | updates =>
      rw [joined_updates hphase] at hjoined
      simp [step, hexit, hphase, Task.join, hjoined, alerter_step_joinOther hnone]
  | uptime =>
      rw [joined_uptime hphase] at hjoined
      obtain ⟨task, rfl, hended⟩ := Option.bind_eq_some_iff.mp hjoined
      simp [step, hexit, hphase, Task.join, hended, alerter_step_joinOther hnone]
  | alerter task =>
      rw [joined_alerter hphase] at hjoined
      have hjoin : (task.join err).isJoinOther = false := by cases task <;> rfl
      simp [step, hexit, hphase, Task.join, hjoin, Alerter.step_join hnone hjoined]

/-- Only the runtime updates end well, so a `main` that returns without an error has
joined these. -/
theorem updates_of_joined_ok {task : Task} {err : ForeignError}
    (hjoined : m.joined err task = some (.ok ())) : m.updates = some (.returned (.ok ())) := by
  obtain ⟨setup, secret, uptime, alerter, hphase⟩ := exists_running_of_joined hjoined
  cases task with
  | updates =>
      rw [joined_updates hphase] at hjoined
      obtain ⟨status, hstatus, hok⟩ := Option.bind_eq_some_iff.mp hjoined
      rw [hstatus]
      cases status with
      | running => cases hok
      | returned result =>
          cases hok
          rfl
      | panicked => cases hok
  | uptime =>
      rw [joined_uptime hphase] at hjoined
      obtain ⟨task, -, hok⟩ := Option.bind_eq_some_iff.mp hjoined
      cases htask : task.phase <;> simp [htask, UptimePhase.joined] at hok
  | alerter task =>
      rw [joined_alerter hphase] at hjoined
      exact absurd hjoined (alerter.joined_ne_ok err task)

/-! ### The return of `main` -/

/-- A `?` returns, or goes on. -/
theorem orReturn_cases {α : Type} (result : Except Error α) (next : α → Main capacity) :
    (∃ err, m.orReturn result next = { m with phase := .returned err }) ∨
      ∃ a, result = .ok a ∧ m.orReturn result next = next a := by
  cases result with
  | ok a => exact Or.inr ⟨a, rfl, rfl⟩
  | error err => exact Or.inl ⟨err, rfl⟩

/-- `main` returns from its start with an error only. A start that goes through ends
with the tasks running. -/
theorem startStep_exit {phase : StartPhase} {event : StartEvent}
    (h : m.startStep externals config phase event = some m') :
    (∃ err, m'.phase = .returned err) ∨ m'.exit = none := by
  have hcases : ∀ {α : Type} (result : Except Error α) (next : α → Main capacity),
      (∀ a, (∃ err, (next a).phase = .returned err) ∨ (next a).exit = none) →
      (∃ err, (m.orReturn result next).phase = .returned err) ∨
        (m.orReturn result next).exit = none := by
    intro α result next hnext
    rcases orReturn_cases (m := m) result next with ⟨err, heq⟩ | ⟨a, -, heq⟩
    · exact Or.inl ⟨err, by rw [heq]⟩
    · rw [heq]
      exact hnext a
  unfold startStep at h
  split at h
  · cases h
    exact hcases _ _ fun _ => Or.inr rfl
  · cases h
    exact hcases _ _ fun _ => Or.inr rfl
  · cases h
    exact hcases _ _ fun _ => Or.inr rfl
  · cases h
    exact hcases _ _ fun _ => Or.inr rfl
  · cases h
    refine hcases _ _ fun genesisHash => ?_
    cases genesisHash with
    | none => exact Or.inr rfl
    | some genesisHash => exact hcases _ _ fun _ => Or.inr rfl
  · cases h
    refine hcases _ _ fun mode => ?_
    split
    · exact Or.inr rfl
    · exact Or.inr rfl
  · cases h
    exact hcases _ _ fun content => hcases _ _ fun secret => Or.inr rfl
  · cases h

/-- A `main` that returns has the result of a task that has ended, unless it returns
from its start. -/
theorem step_exit {event : MainEvent} (h : m.step externals config event = some m')
    {result : Except Error Unit} (hexit' : m'.exit = some result) :
    (∃ err, m'.phase = .returned err) ∨ ∃ task err, m'.joined err task = some result := by
  obtain ⟨hexit, hmoves⟩ := step_moves h
  cases hmoves with
  | start phase event m' hphase hstep =>
      rcases startStep_exit hstep with hreturned | hnone
      · exact Or.inl hreturned
      · rw [hnone] at hexit'
        cases hexit'
  | updates result status hrunning =>
      rw [show Main.exit { m with updates := some status } = m.exit from rfl, hexit] at hexit'
      cases hexit'
  | uptime setup secret url task task' alerter event hphase hstep =>
      simp only [exit, hphase] at hexit hexit'
      rw [hexit] at hexit'
      cases hexit'
  | alerter setup secret uptime alerter alerter' event hphase hjoin hstep =>
      cases Alerter.step_exits hstep with
      | waits event alerter' hnone =>
          simp only [exit] at hexit'
          rw [hnone] at hexit'
          cases hexit'
      | joins task err result' hjoined =>
          cases hexit'
          refine Or.inr ⟨.alerter task, err, ?_⟩
          rw [joined_alerter rfl, Alerter.joined_setExit]
          exact hjoined
      | other result' => cases hjoin
  | join task setup secret uptime alerter err result' hphase hjoined =>
      cases hexit'
      refine Or.inr ⟨task, err, ?_⟩
      rw [joined_setExit hphase]
      exact hjoined

/-- The result of `main` is an error of its start, or the result of a task that has
ended. By induction on the run: before the return nothing is claimed, and the step that
returns is a failed start or a join. -/
theorem run_exit {events : List MainEvent} (hrun : run (step externals config) init events = some m)
    {result : Except Error Unit} (hexit : m.exit = some result) :
    (∃ err, m.phase = .returned err) ∨ ∃ task err, m.joined err task = some result := by
  refine run_invariant (P := fun m : Main capacity => ∀ result, m.exit = some result →
    (∃ err, m.phase = .returned err) ∨ ∃ task err, m.joined err task = some result)
    (fun m event m' _ hstep result hexit => step_exit hstep hexit) events init m ?_ hrun result
    hexit
  intro result hnone
  cases hnone

end Main

/-- `main` returns with its tasks, in every interleaving of them. When `main` has
returned, its start has failed, or a task has ended and the result of `main` is the one
of that task, where a panic is an error too. `main` returns without an error only when
the runtime updates have ended without one. A task that has ended does not run again,
whatever happens later, and as long as `main` has not returned it can return with the
result of this task. -/
theorem main_supervises_tasks (capacity : Nat) (externals : MainExternals) (config : Config)
    (events : List MainEvent) (m : Main capacity)
    (hrun : run (Main.step externals config) Main.init events = some m) :
    (∀ result, m.exit = some result →
      (∃ err, m.phase = .returned err ∧ result = .error err) ∨
        ∃ task err, m.joined err task = some result) ∧
    (m.exit = some (.ok ()) → m.updates = some (.returned (.ok ()))) ∧
    ∀ task err result, m.joined err task = some result →
      ∀ later m', run (Main.step externals config) m later = some m' →
        m'.joined err task = some result ∧
        (m'.exit = none →
          ∃ m'', m'.step externals config (task.join err) = some m'' ∧ m''.exit = some result) := by
  have hexits : ∀ result, m.exit = some result →
      (∃ err, m.phase = .returned err ∧ result = .error err) ∨
        ∃ task err, m.joined err task = some result := by
    intro result hexit
    rcases Main.run_exit hrun hexit with ⟨err, hreturned⟩ | hjoined
    · refine Or.inl ⟨err, hreturned, ?_⟩
      simp only [Main.exit, hreturned, Option.some.injEq] at hexit
      exact hexit.symm
    · exact Or.inr hjoined
  refine ⟨hexits, fun hexit => ?_, fun task err result hjoined later m' hlater => ?_⟩
  · rcases hexits _ hexit with ⟨err, -, herror⟩ | ⟨task, err, hjoined⟩
    · cases herror
    · exact Main.updates_of_joined_ok hjoined
  · have hjoined' : m'.joined err task = some result :=
      run_invariant (P := fun m : Main capacity => m.joined err task = some result)
        (fun _ _ _ hjoined hstep => Main.step_joined hstep hjoined) later m m' hjoined hlater
    exact ⟨hjoined', fun hexit => Main.step_join hexit hjoined'⟩

/-! ### A push that fails -/

/-- One network. -/
def sampleMainExternals : MainExternals :=
  { env := walkExternals, eventEnv := fun _ => sampleExternals, formatEnv := plainFormat
    toml := fun _ => .ok fun name => if name = "devnet" then some ⟨sampleAccounts, []⟩ else none }

/-- A command line with a push task, and the channel written with its `#`. -/
def sampleConfig : Config :=
  { rpcUrl := "ws://node"
    uptimekuma := { uptimekumaUrl := some "http://uptime" }
    slack := { slackBotName := "alerter", slackChannelName := "#alerts" } }

/-- The system properties of a network whose token has these decimals. -/
def sampleProperties (decimals : UInt64) : SystemProperties := fun key =>
  if key = "ss58Format" then some (.number 6094)
  else if key = "tokenSymbol" then some (.string "AI3")
  else if key = "tokenDecimals" then some (.number decimals)
  else none

/-- All answers of a start. -/
def mainStartEvents (decimals : UInt64) : List MainEvent :=
  [.start (.rpcClient (.ok ())), .start (.client (.ok ())), .start (.systemChain (.ok "devnet")),
   .start (.systemProperties (.ok (sampleProperties decimals))),
   .start (.genesisHash (.ok (some 7)) (.ok "networks") (.ok ())),
   .start (.secretMetadata (.ok 0o100600)), .start (.secretFile (.ok "token\n") (.ofSecs 0))]

/-- One push arrives, and the next one does not. -/
def failedPushEvents : List MainEvent :=
  mainStartEvents 18 ++ [.uptime (.client (.ok ())), .uptime .tick, .uptime (.answer (.ok true)),
    .uptime .tick, .uptime (.answer (.error ⟨"timeout"⟩))]

/-- A single push that fails ends the alerter. -/
theorem main_supervises_tasks_failedPush :
    ∃ m m' : Main 4, run (Main.step sampleMainExternals sampleConfig) Main.init failedPushEvents =
        some m ∧
      m.exit = none ∧
      m.step sampleMainExternals sampleConfig (Task.uptime.join ⟨"panic"⟩) = some m' ∧
      m'.exit = some (.error (.reqwest ⟨"timeout"⟩)) := by
  have hstate : ∃ m : Main 4, run (Main.step sampleMainExternals sampleConfig) Main.init
      failedPushEvents = some m ∧ m.exit = none ∧
      m.joined ⟨"panic"⟩ .uptime = some (.error (.reqwest ⟨"timeout"⟩)) := ⟨_, rfl, rfl, rfl⟩
  obtain ⟨m, hrun, hexit, hjoined⟩ := hstate
  obtain ⟨m', hstep, hexit'⟩ := ((main_supervises_tasks 4 sampleMainExternals sampleConfig _ m
    hrun).2.2 .uptime _ _ hjoined [] m rfl).2 hexit
  exact ⟨m, m', hrun, hexit, hstep, hexit'⟩

end ChainAlerter
