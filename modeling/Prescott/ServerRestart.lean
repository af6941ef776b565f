import Prescott.TaskSchedules

namespace Prescott

/-!
# The restart of the server

What `registerFromDatabase` makes of the stored tasks in a process that has
just begun.  Tables, images, containers and files outlive a process; cron
entries, locks, dispatched builds and the queue do not.
-/

/-- The state that a new process finds. -/
def TaskState.restarted (state : TaskState) : TaskState :=
  { state with
    scheduler := .empty
    lockedResources := []
    builds := []
    queue := []
    running := 0 }

/-- The tasks that `registerFromDatabase` finds. -/
def TaskTables.activeTasks (tables : TaskTables) : List Task :=
  tables.tasks.select fun task => task.active == true

/-- The rows that `findAllByTaskIdAndStatus` finds with the status pending. -/
def TaskTables.pendingRuns (tables : TaskTables) (taskId : Nat) :
    List TaskRun :=
  ((tables.runsOf taskId).filter fun run =>
    run.status == .pending).insertionSort fun left right =>
      left.rank.le right.rank

/-- The executors that `enqueuePendingRuns` enqueues. -/
def TaskTables.pendingHandles (tables : TaskTables) (taskId : Nat) :
    List TaskRunHandle :=
  (tables.pendingRuns taskId).map fun taskRun =>
    { taskId, runId := taskRun.id, runRank := taskRun.rank }

/-- The pending runs of a task are enqueued and the task is registered. -/
def TaskState.registered (state : TaskState) (task : Task) : TaskState :=
  { state with
    queue := state.queue ++ state.tables.pendingHandles task.id
    scheduler :=
      state.scheduler.scheduleTask task.id task.config.config.scheduleConfig
    builds := state.builds ++ [(task.id, task.config)] }

/-- The expression in the config is one that node-cron takes. -/
def TaskConfigDto.Valid
    (config : TaskServerConfig)
    (taskConfig : TaskConfigDto) :
    Prop :=
  config.isValidCron taskConfig.config.scheduleConfig = true

section Start

variable {config : TaskServerConfig}
variable {before after : TaskState}
variable {tables : TaskTables}
variable {outcome : Except AppError Unit}
variable {task : Task}
variable {tasks : List Task}
variable {taskId : Nat}

theorem TaskTables.mem_activeTasks :
    task ∈ tables.activeTasks ↔
      task ∈ tables.tasks.rows ∧ task.active = true := by
  simp [activeTasks]

/-- No two of the tasks found have one identifier. -/
theorem TaskTables.nodup_activeTasks :
    (tables.activeTasks.map Task.id).Nodup :=
  (List.filter_sublist.map Task.id).nodup tables.tasks.keysNodup

theorem TaskTables.mem_pendingRuns
    {run : TaskRun} :
    run ∈ tables.pendingRuns taskId ↔
      run ∈ tables.taskRuns.rows ∧ run.taskId = taskId ∧
        run.status = .pending := by
  simp [pendingRuns, runsOf, and_assoc]

/-- An operation whose answer is certain. -/
theorem perform_iff_of_certain
    (op : TaskOp)
    {answer : Except AppError op.Result}
    (certain : ∀ input, taskHost config op input before = some (answer, after))
    (result : Except AppError op.Result)
    (reached : TaskState) :
    Settles (taskHost config) (TaskOp.perform op) before result reached ↔
      result = answer ∧ reached = after := by
  rw [Settles.perform_iff]
  constructor
  · rintro ⟨input, answered⟩
    rw [certain input] at answered
    cases answered
    exact ⟨rfl, rfl⟩
  · rintro ⟨rfl, rfl⟩
    exact ⟨.done, certain .done⟩

/-- An executor is added to the end of the queue. -/
def TaskState.enqueued (state : TaskState) (runHandle : TaskRunHandle) :
    TaskState :=
  { state with queue := state.queue ++ [runHandle] }

/-- All executors of a list are added in its order. -/
theorem foldl_enqueued
    (runHandles : List TaskRunHandle) :
    runHandles.foldl TaskState.enqueued before =
      { before with queue := before.queue ++ runHandles } := by
  induction runHandles generalizing before with
  | nil => simp
  | cons runHandle rest inductionHypothesis =>
      rw [List.foldl_cons, inductionHypothesis]
      simp [TaskState.enqueued]

/-- What the loop of `enqueuePendingRuns` does. -/
theorem enqueueRuns_iff
    (handleOf : TaskRun → TaskRunHandle)
    (runs : List TaskRun) :
    Settles (taskHost config)
        (forM runs fun taskRun =>
          TaskExecutorService.enqueueExecutable (handleOf taskRun))
        before outcome after ↔
      outcome = .ok () ∧
        after = { before with queue := before.queue ++ runs.map handleOf } := by
  have folds :
      runs.foldl (fun state taskRun => state.enqueued (handleOf taskRun))
          before =
        { before with queue := before.queue ++ runs.map handleOf } := by
    rw [← foldl_enqueued, List.foldl_map]
  rw [← folds]
  exact Settles.forM_iff (fun _ _ => True)
    (fun taskRun _ _ _ =>
      ⟨trivial,
        perform_iff_of_certain (.enqueue (handleOf taskRun)) fun _ => rfl⟩)
    trivial

/-- The pending runs are enqueued, whatever else there is. -/
theorem enqueuePendingRuns_iff :
    Settles (taskHost config) (TaskService.enqueuePendingRuns task) before
        outcome after ↔
      outcome = .ok () ∧
        after =
          { before with
            queue :=
              before.queue ++ before.tables.pendingHandles task.id } := by
  have found
      (result : Except AppError (List TaskRun))
      (reached : TaskState) :
      Settles (taskHost config)
          (TaskRunService.getAllByStatus task.id .pending) before result
          reached ↔
        result = .ok (before.tables.pendingRuns task.id) ∧ reached = before :=
    perform_iff_of_certain (.findRunsByTaskAndStatus task.id .pending)
      (fun _ => rfl) result reached
  rw [TaskService.enqueuePendingRuns, Settles.bind_iff_of_certain found]
  exact enqueueRuns_iff _ _

/-- Where there is no entry, a valid task is scheduled and its build dispatched. -/
theorem register_iff
    (absent : before.scheduler.exists? task.id = false)
    (valid : task.config.Valid config) :
    Settles (taskHost config) (TaskService.register task.id task.config)
        before outcome after ↔
      outcome = .ok () ∧
        after =
          { before with
            scheduler :=
              before.scheduler.scheduleTask task.id
                task.config.config.scheduleConfig
            builds := before.builds ++ [(task.id, task.config)] } := by
  have asks
      (input : TaskInput) :
      taskHost config (.schedulerExists task.id) input before =
        some (.ok false, before) := by
    simp only [taskHost, absent]
  have schedules
      (input : TaskInput) :
      taskHost config
          (.schedulerSchedule task.id task.config.config.scheduleConfig) input
          before =
        before.reschedule
          (before.scheduler.scheduleTask task.id
            task.config.config.scheduleConfig) := by
    simp only [taskHost]
    exact if_pos valid
  rw [TaskService.register, TaskExecutorService.scheduleExecutable,
    Settles.bind_iff_of_certain (perform_iff_of_certain _ asks),
    Settles.bind_iff_of_certain (perform_iff_of_certain _ schedules)]
  exact perform_iff_of_certain (.dispatchBuild task.id task.config)
    (fun _ => rfl) _ _

/-- A task that is scheduled anew is valid. -/
theorem valid_of_register
    (absent : before.scheduler.exists? task.id = false)
    (settles :
      Settles (taskHost config) (TaskService.register task.id task.config)
        before (.ok ()) after) :
    task.config.Valid config := by
  have asks
      (input : TaskInput) :
      taskHost config (.schedulerExists task.id) input before =
        some (.ok false, before) := by
    simp only [taskHost, absent]
  rw [TaskService.register, TaskExecutorService.scheduleExecutable,
    Settles.bind_iff_of_certain (perform_iff_of_certain _ asks)] at settles
  obtain ⟨_, _, schedules, _⟩ := settles.resolved_bind
  obtain ⟨_, answered⟩ := Settles.perform_iff.mp schedules
  simp only [taskHost] at answered
  split at answered
  · assumption
  · cases answered

/-- What one round of the loop of `registerFromDatabase` does. -/
theorem registerTask_iff
    (absent : before.scheduler.exists? task.id = false)
    (valid : task.config.Valid config) :
    Settles (taskHost config)
        (do
          TaskService.enqueuePendingRuns task
          TaskService.register task.id task.config)
        before outcome after ↔
      outcome = .ok () ∧ after = before.registered task := by
  rw [Settles.bind_iff_of_certain fun _ _ => enqueuePendingRuns_iff]
  exact register_iff absent valid

/-- The tasks are different ones, and none of them has an entry. -/
structure Unregistered (tasks : List Task) (state : TaskState) : Prop where
  nodup : (tasks.map Task.id).Nodup
  absent : ∀ task ∈ tasks, state.scheduler.scheduleOf task.id = none

theorem Unregistered.head
    (unregistered : Unregistered (task :: tasks) before) :
    before.scheduler.exists? task.id = false := by
  rw [CronScheduler.exists_iff_scheduleOf,
    unregistered.absent task List.mem_cons_self]
  rfl

/-- A task that has been registered leaves the others as they are. -/
theorem Unregistered.rest
    (unregistered : Unregistered (task :: tasks) before) :
    Unregistered tasks (before.registered task) := by
  obtain ⟨different, nodup⟩ := List.nodup_cons.mp unregistered.nodup
  refine ⟨nodup, fun other member => ?_⟩
  have isOther : other.id ≠ task.id := fun same =>
    different (same ▸ List.mem_map_of_mem member)
  exact (CronScheduler.scheduleOf_scheduleTask_other isOther).trans
    (unregistered.absent other (List.mem_cons_of_mem _ member))

/-- Valid tasks are registered one after the other. -/
theorem registerTasks_iff
    (unregistered : Unregistered tasks before)
    (valid : ∀ task ∈ tasks, task.config.Valid config) :
    Settles (taskHost config)
        (forM tasks fun task => do
          TaskService.enqueuePendingRuns task
          TaskService.register task.id task.config)
        before outcome after ↔
      outcome = .ok () ∧ after = tasks.foldl TaskState.registered before := by
  refine Settles.forM_iff
    (fun tasks state =>
      Unregistered tasks state ∧ ∀ task ∈ tasks, task.config.Valid config)
    ?_ ⟨unregistered, valid⟩
  rintro task rest state ⟨unregistered, valid⟩
  obtain ⟨taskValid, restValid⟩ := List.forall_mem_cons.mp valid
  exact ⟨⟨unregistered.rest, restValid⟩, fun _ _ =>
    registerTask_iff unregistered.head taskValid⟩

/-- Where all tasks are registered, all of them are valid. -/
theorem valid_of_registerTasks
    (unregistered : Unregistered tasks before)
    (settles :
      Settles (taskHost config)
        (forM tasks fun task => do
          TaskService.enqueuePendingRuns task
          TaskService.register task.id task.config)
        before (.ok ()) after) :
    ∀ task ∈ tasks, task.config.Valid config := by
  induction tasks generalizing before with
  | nil =>
      intro task member
      cases member
  | cons task rest inductionHypothesis =>
      rw [List.forM_cons] at settles
      obtain ⟨_, middle, first, later⟩ := settles.resolved_bind
      have valid : task.config.Valid config := by
        rw [Settles.bind_iff_of_certain fun _ _ => enqueuePendingRuns_iff]
          at first
        refine valid_of_register ?_ first
        exact unregistered.head
      obtain ⟨_, rfl⟩ := (registerTask_iff unregistered.head valid).mp first
      exact List.forall_mem_cons.mpr
        ⟨valid, inductionHypothesis unregistered.rest later⟩

/-- The registered tasks have enqueued their pending runs, and nothing else. -/
theorem queue_foldl_registered :
    (tasks.foldl TaskState.registered before).queue =
      before.queue ++
        tasks.flatMap fun task => before.tables.pendingHandles task.id := by
  induction tasks generalizing before with
  | nil => simp
  | cons task rest inductionHypothesis =>
      rw [List.foldl_cons, inductionHypothesis]
      simp [TaskState.registered]

theorem tables_foldl_registered :
    (tasks.foldl TaskState.registered before).tables = before.tables := by
  induction tasks generalizing before with
  | nil => rfl
  | cons task rest inductionHypothesis =>
      rw [List.foldl_cons, inductionHypothesis]
      rfl

/-- A build is dispatched for every registered task. -/
theorem builds_foldl_registered :
    (tasks.foldl TaskState.registered before).builds =
      before.builds ++ tasks.map fun task => (task.id, task.config) := by
  induction tasks generalizing before with
  | nil => simp
  | cons task rest inductionHypothesis =>
      rw [List.foldl_cons, inductionHypothesis]
      simp [TaskState.registered]

/-- A task that is not among the registered ones keeps its entry. -/
theorem scheduleOf_foldl_registered_other
    (notMember : taskId ∉ tasks.map Task.id) :
    (tasks.foldl TaskState.registered before).scheduler.scheduleOf taskId =
      before.scheduler.scheduleOf taskId := by
  induction tasks generalizing before with
  | nil => rfl
  | cons task rest inductionHypothesis =>
      obtain ⟨isOther, notRest⟩ := List.ne_and_not_mem_of_not_mem_cons notMember
      rw [List.foldl_cons, inductionHypothesis notRest]
      exact CronScheduler.scheduleOf_scheduleTask_other isOther

/-- Every registered task has an entry with its schedule. -/
theorem scheduleOf_foldl_registered
    (nodup : (tasks.map Task.id).Nodup)
    (member : task ∈ tasks) :
    (tasks.foldl TaskState.registered before).scheduler.scheduleOf task.id =
      some task.config.config.scheduleConfig := by
  induction tasks generalizing before with
  | nil => cases member
  | cons first rest inductionHypothesis =>
      obtain ⟨different, restNodup⟩ := List.nodup_cons.mp nodup
      rw [List.foldl_cons]
      rcases List.mem_cons.mp member with rfl | member
      · rw [scheduleOf_foldl_registered_other different]
        exact CronScheduler.scheduleOf_scheduleTask_self
      · exact inductionHypothesis restNodup member

end Start

variable {config : TaskServerConfig}
variable {state started : TaskState}

theorem findAllByActive_iff
    (result : Except AppError (List Task))
    (reached : TaskState) :
    Settles (taskHost config) (TaskDao.findAllByActive true) state result
        reached ↔
      result = .ok state.tables.activeTasks ∧ reached = state :=
  perform_iff_of_certain (.findTasksByActive true) (fun _ => rfl) _ _

theorem unregistered_restarted :
    Unregistered state.tables.activeTasks state.restarted :=
  ⟨TaskTables.nodup_activeTasks, fun _ _ => rfl⟩

/-- When all active tasks are valid, it is certain what the start-up does. -/
theorem registerFromDatabase_iff
    (valid : ∀ task ∈ state.tables.activeTasks, task.config.Valid config)
    {outcome : Except AppError Unit} :
    Settles (taskHost config) TaskService.registerFromDatabase state.restarted
        outcome started ↔
      outcome = .ok () ∧
        started =
          state.tables.activeTasks.foldl TaskState.registered
            state.restarted := by
  rw [TaskService.registerFromDatabase,
    Settles.bind_iff_of_certain findAllByActive_iff]
  exact registerTasks_iff unregistered_restarted valid

/-- A start-up that resolves has found all active tasks valid. -/
theorem valid_of_registerFromDatabase
    (settles :
      Settles (taskHost config) TaskService.registerFromDatabase
        state.restarted (.ok ()) started) :
    ∀ task ∈ state.tables.activeTasks, task.config.Valid config := by
  rw [TaskService.registerFromDatabase,
    Settles.bind_iff_of_certain findAllByActive_iff] at settles
  exact valid_of_registerTasks unregistered_restarted settles

/--
The start-up comes to its end without an error, and then every active task has
an entry with its schedule and a build of its image.
-/
structure TaskState.Restarts
    (config : TaskServerConfig)
    (state : TaskState) :
    Prop where
  settles :
    ∃ outcome started,
      Settles (taskHost config) TaskService.registerFromDatabase
        state.restarted outcome started
  registers :
    ∀ outcome started,
      Settles (taskHost config) TaskService.registerFromDatabase
        state.restarted outcome started →
      outcome = .ok () ∧
        ∀ task ∈ state.tables.tasks.rows,
          task.active = true →
          started.scheduler.scheduleOf task.id =
              some task.config.config.scheduleConfig ∧
            (task.id, task.config) ∈ started.builds

/-- The server can restart if and only if node-cron takes all that is stored. -/
theorem restarts_iff :
    state.Restarts config ↔
      ∀ task ∈ state.tables.tasks.rows,
        task.active = true → task.config.Valid config := by
  constructor
  · intro restarts task member isActive
    obtain ⟨outcome, started, settles⟩ := restarts.settles
    obtain ⟨rfl, _⟩ := restarts.registers outcome started settles
    exact valid_of_registerFromDatabase settles task
      (TaskTables.mem_activeTasks.mpr ⟨member, isActive⟩)
  · intro valid
    have activeValid
        (task : Task)
        (member : task ∈ state.tables.activeTasks) :
        task.config.Valid config :=
      valid task (TaskTables.mem_activeTasks.mp member).1
        (TaskTables.mem_activeTasks.mp member).2
    refine ⟨⟨_, _, (registerFromDatabase_iff activeValid).mpr ⟨rfl, rfl⟩⟩, ?_⟩
    intro outcome started settles
    obtain ⟨rfl, rfl⟩ := (registerFromDatabase_iff activeValid).mp settles
    refine ⟨rfl, fun task member isActive => ?_⟩
    have found := TaskTables.mem_activeTasks.mpr ⟨member, isActive⟩
    refine ⟨scheduleOf_foldl_registered TaskTables.nodup_activeTasks found, ?_⟩
    rw [builds_foldl_registered]
    exact List.mem_append_right _ (List.mem_map_of_mem found)

end Prescott
