import Prescott.ServerRestart

namespace Prescott

/-!
# Stored schedules and the restart

Only node-cron itself looks at a cron expression.  An update and a start call
the scheduler before they write the row, a creation afterwards: a rejected
creation leaves behind an active row that no later start-up gets past.
-/

namespace TaskView

/--
The condition on a turn: a creation whose row goes in, and an update that
finds an entry in its place, carry an expression that node-cron takes.
-/
def StoresValid (config : TaskServerConfig) (view : TaskView) :
    Turn TaskCall TaskInput → Prop
  | .invoke _ _ => True
  | .resume pid _ =>
      (∀ groupId userId taskConfig,
        view.progress pid =
          some ⟨.createTask groupId userId taskConfig, .inserting⟩ →
        (∀ task ∈ view.shared.tables.tasks.rows,
          task.name ≠ buildTaskUniqueName groupId taskConfig.name) →
        taskConfig.Valid config) ∧
      ∀ id localConfig taskId taskConfig,
        view.progress pid =
          some ⟨.updateTask id localConfig,
            .checkingEntry taskId taskConfig⟩ →
        view.shared.scheduler.exists? taskId = true →
        taskConfig.Valid config

end TaskView

/-- The config that a call has got past the scheduler. -/
def TaskPhase.scheduledConfig : TaskPhase → Option TaskConfigDto
  | .dispatching _ taskConfig | .storing _ taskConfig => some taskConfig
  | _ => none

/-- A row of `tasks` is inserted by `createTask`. -/
theorem TaskPhase.inserting_of_permits
    {call : TaskCall}
    {phase : TaskPhase}
    {data : NewTask}
    (permitted : phase.permits call (.insertTask data)) :
    ∃ groupId userId taskConfig,
      phase = .inserting ∧
        call = .createTask groupId userId taskConfig ∧
          data = newTaskRow groupId userId taskConfig := by
  cases phase <;> simp [permits] at permitted
  case beginning => cases call <;> simp [TaskCall.firstOp] at permitted
  case inserting =>
    obtain ⟨groupId, userId, taskConfig, isCall, isRow⟩ := permitted
    exact ⟨groupId, userId, taskConfig, rfl, isCall, isRow⟩

/-- A row goes in where its name is free. -/
theorem TaskTables.fresh_of_insertTask
    {tables after : TaskTables}
    {data : NewTask}
    {id : Nat}
    (inserted : tables.insertTask data = .ok (id, after)) :
    ∀ task ∈ tables.tasks.rows, task.name ≠ data.name := by
  unfold insertTask at inserted
  split at inserted
  · assumption
  · cases inserted

namespace TaskView

/-- All stored expressions are valid, and those that are about to be stored. -/
structure SchedulesValid (config : TaskServerConfig) (view : TaskView) :
    Prop where
  stored :
    ∀ task ∈ view.shared.tables.tasks.rows, task.config.Valid config
  scheduled :
    ∀ pid phase taskConfig,
      view.InPhase pid phase →
      phase.scheduledConfig = some taskConfig →
      taskConfig.Valid config

variable {config : TaskServerConfig}
variable {view : TaskView}
variable {pid : Nat}
variable {call : TaskCall}
variable {phase : TaskPhase}
variable {op : TaskOp}
variable {input : TaskInput}
variable {answer : Except AppError op.Result}
variable {shared : TaskState}

/-- A creation inserts a valid row. -/
theorem SchedulesValid.stored_insert
    {data : NewTask}
    {answer : Except AppError Nat}
    (schedulesValid : view.SchedulesValid config)
    (storesValid : view.StoresValid config (.resume pid input))
    (present : view.progress pid = some ⟨call, phase⟩)
    (permitted : phase.permits call (.insertTask data))
    (answered :
      taskHost config (.insertTask data) input view.shared =
        some (answer, shared)) :
    ∀ task ∈ shared.tables.tasks.rows, task.config.Valid config := by
  obtain ⟨groupId, userId, taskConfig, rfl, rfl, rfl⟩ :=
    TaskPhase.inserting_of_permits permitted
  rcases TaskState.attempt_eq answered with
      ⟨_, _, inserted, _, rfl⟩ | ⟨_, _, _, rfl⟩
  · intro task member
    rcases (TaskTables.mem_insertTask inserted).mp member with old | rfl
    · exact schedulesValid.stored task old
    · exact storesValid.1 groupId userId taskConfig present
        (TaskTables.fresh_of_insertTask inserted)
  · exact schedulesValid.stored

/-- Whatever a call awaits, what is stored stays valid. -/
theorem SchedulesValid.stored_answer
    (schedulesValid : view.SchedulesValid config)
    (storesValid : view.StoresValid config (.resume pid input))
    (present : view.progress pid = some ⟨call, phase⟩)
    (permitted : phase.permits call op)
    (answered :
      taskHost config op input view.shared = some (answer, shared)) :
    ∀ task ∈ shared.tables.tasks.rows, task.config.Valid config := by
  cases op with
  | insertTask data =>
      exact schedulesValid.stored_insert storesValid present permitted answered
  | updateTaskConfig id taskConfig =>
      cases answered
      have stores := TaskPhase.storing_of_permits permitted
      subst stores
      intro task member
      obtain ⟨old, oldMember, rfl⟩ := TaskTables.mem_setConfig.mp member
      split
      · exact schedulesValid.scheduled pid _ taskConfig ⟨call, present⟩ rfl
      · exact schedulesValid.stored old oldMember
  | setTaskActive id value =>
      cases answered
      intro task member
      obtain ⟨old, oldMember, rfl⟩ := TaskTables.mem_setActive.mp member
      split
      · exact schedulesValid.stored old oldMember
      · exact schedulesValid.stored old oldMember
  | deleteTaskById id =>
      cases answered
      intro task member
      exact schedulesValid.stored task (Table.mem_rows_deleteWhere.mp member).1
  | _ =>
      rw [(taskHost_keeps answered).tasks rfl]
      exact schedulesValid.stored

/-- What a call gets past the scheduler is valid. -/
theorem SchedulesValid.scheduled_advance
    {taskConfig : TaskConfigDto}
    (schedulesValid : view.SchedulesValid config)
    (storesValid : view.StoresValid config (.resume pid input))
    (present : view.progress pid = some ⟨call, phase⟩)
    (permitted : phase.permits call op)
    (answered :
      taskHost config op input view.shared = some (answer, shared))
    (scheduled :
      (phase.advance call op answer).scheduledConfig = some taskConfig) :
    taskConfig.Valid config := by
  have before := schedulesValid.scheduled pid phase taskConfig ⟨call, present⟩
  have advances := TaskPhase.advances_advance answer permitted
  generalize phase.advance call op answer = next at advances scheduled
  cases advances with
  | failed fails =>
      cases fails with
      | same => exact before scheduled
      | _ => cases scheduled
  | scheduled =>
      cases scheduled
      cases permitted
      simp only [taskHost] at answered
      split at answered
      · assumption
      · cases answered
  | dispatched =>
      cases call with
      | updateTask => exact before scheduled
      | _ => cases scheduled
  | present =>
      cases call with
      | updateTask =>
          cases scheduled
          cases permitted
          obtain ⟨found, _⟩ := Prod.mk.inj (Option.some.inj answered)
          exact storesValid.2 _ _ _ _ present (Except.ok.inj found)
      | _ => cases scheduled
  | _ => cases scheduled

/-- Every turn within the condition keeps the schedules valid. -/
theorem SchedulesValid.step
    {before after : TaskView}
    {turn : Turn TaskCall TaskInput}
    (schedulesValid : before.SchedulesValid config)
    (storesValid : before.StoresValid config turn)
    (moves :
      Protocol.Moves (taskServices config) taskProtocol before turn after) :
    after.SchedulesValid config := by
  cases moves with
  | @invoke pid call shared fresh begun =>
      obtain ⟨sameTables, _⟩ := beginTaskCall_keeps begun
      constructor
      · change ∀ task ∈ shared.tables.tasks.rows, _
        rw [sameTables]
        exact schedulesValid.stored
      · intro other phase taskConfig inPhase scheduled
        rcases inPhase.of_place with ⟨_, rfl⟩ | ⟨_, earlier⟩
        · cases call <;> cases scheduled
        · exact schedulesValid.scheduled other phase taskConfig earlier scheduled
  | resume present permitted answered =>
      constructor
      · exact schedulesValid.stored_answer storesValid present permitted answered
      · intro other phase taskConfig inPhase scheduled
        rcases inPhase.of_place with ⟨_, rfl⟩ | ⟨_, earlier⟩
        · exact schedulesValid.scheduled_advance storesValid present permitted
            answered scheduled
        · exact schedulesValid.scheduled other phase taskConfig earlier scheduled

theorem SchedulesValid.initially :
    TaskView.SchedulesValid config (.initial taskProtocol .initial) := by
  constructor
  · intro task member
    cases member
  · rintro pid phase taskConfig ⟨_, present⟩
    cases present

end TaskView

/--
In every interleaving of the task calls in which neither a creation inserts an
invalid expression nor an update skips the scheduler with one, the server can
restart from every state reached: the start-up resolves and registers every
active task.
-/
theorem restarts_of_run
    (config : TaskServerConfig)
    (turns : List (Turn TaskCall TaskInput))
    (final : Interleaving TaskState taskProtocol)
    (run :
      Run
        (Interleaving.Step (taskServices config) (TaskView.StoresValid config))
        (.initial taskProtocol .initial) turns final) :
    final.shared.Restarts config := by
  obtain ⟨moves, _⟩ := Interleaving.moves_of_run TaskPhase.conforms_taskBody run
  have schedulesValid :=
    moves.invariant (TaskView.SchedulesValid config)
      (fun _ _ _ schedulesValid taken => schedulesValid.step taken.1 taken.2)
      TaskView.SchedulesValid.initially
  exact restarts_iff.mpr fun task member _ => schedulesValid.stored task member

/-- A server that takes no cron expression but one. -/
def strictServer : TaskServerConfig where
  maxConcurrency := 5
  isValidCron := fun text => text == "* * * * *"
  regExp := fun _ => none

/-- The config of a task whose schedule is no cron expression. -/
def unschedulable : TaskConfigDto :=
  { minutely with
    name := "cleanup"
    config := { minutely.config with scheduleConfig := "every minute" } }

/-- The row goes in, and the scheduler throws. -/
def rejectedTurns : List (Turn TaskCall TaskInput) :=
  [.invoke 0 (.createTask 1 1 unschedulable), .resume 0 .done, .resume 0 .done,
    .resume 0 .done, .resume 0 .done]

/-- Another task is created. -/
def acceptedTurns : List (Turn TaskCall TaskInput) :=
  [.invoke 1 (.createTask 1 1 minutely), .resume 1 .done, .resume 1 .done,
    .resume 1 .done, .resume 1 .done, .resume 1 .done]

/-- The second task is updated with a schedule that the scheduler rejects. -/
def rejectedUpdateTurns : List (Turn TaskCall TaskInput) :=
  [.invoke 2 (.updateTask 1 unschedulable.config), .resume 2 .done,
    .resume 2 .done, .resume 2 (.children []), .resume 2 .done, .resume 2 .done,
    .resume 2 .done]

/-- A check for turns of creations and updates with valid expressions. -/
def storesChecked (config : TaskServerConfig) (view : TaskView) :
    Turn TaskCall TaskInput → Bool
  | .invoke _ _ => true
  | .resume pid _ =>
      match view.progress pid with
      | some ⟨.createTask _ _ taskConfig, .inserting⟩ =>
          config.isValidCron taskConfig.config.scheduleConfig
      | some ⟨.updateTask _ _, .checkingEntry taskId _⟩ =>
          !view.shared.scheduler.exists? taskId
      | _ => true

theorem storesValid_of_storesChecked
    {config : TaskServerConfig}
    (view : TaskView)
    (turn : Turn TaskCall TaskInput)
    (passed : storesChecked config view turn = true) :
    view.StoresValid config turn := by
  cases turn with
  | invoke pid call => trivial
  | resume pid input =>
      constructor
      · intro groupId userId taskConfig present _
        simp only [storesChecked, present] at passed
        exact passed
      · intro id localConfig taskId taskConfig present found
        simp [storesChecked, present, found] at passed

/--
A task is created; an update of it with an invalid expression is rejected, and
the server restarts.
-/
theorem restarts_of_run_rejectedUpdate :
    ∃ final,
      Run
          (Interleaving.Step (taskServices strictServer)
            (TaskView.StoresValid strictServer))
          (.initial taskProtocol .initial)
          (acceptedTurns ++ rejectedUpdateTurns) final ∧
        final.view.InPhase 2 (.settled false) ∧
        final.shared.tables.tasks.rows.map Task.active = [true] ∧
        final.shared.Restarts strictServer := by
  have run
      (final : Interleaving TaskState taskProtocol)
      (executed :
        (Interleaving.initial taskProtocol .initial).executeIf
            (taskServices strictServer) (storesChecked strictServer)
            (acceptedTurns ++ rejectedUpdateTurns) =
          some final) :=
    Interleaving.run_of_executeIf storesValid_of_storesChecked executed
  exact ⟨_, run _ rfl, ⟨_, rfl⟩, rfl, restarts_of_run _ _ _ (run _ rfl)⟩

/--
A creation is answered with an error because of its expression, and another
task is created; then the server cannot restart.
-/
theorem restart_fails_after_rejectedCreation :
    ∃ final,
      Run (Interleaving.Step (taskServices strictServer) fun _ _ => True)
          (.initial taskProtocol .initial) (rejectedTurns ++ acceptedTurns)
          final ∧
        final.view.InPhase 0 (.settled false) ∧
        final.shared.tables.tasks.rows.map Task.active = [true, true] ∧
        ¬ final.shared.Restarts strictServer := by
  refine ⟨_, Interleaving.run_of_foldlM rfl, ⟨_, rfl⟩, rfl, ?_⟩
  intro restarts
  have valid := restarts_iff.mp restarts _ List.mem_cons_self rfl
  cases valid

end Prescott
