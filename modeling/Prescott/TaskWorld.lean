import Mathlib.Data.List.Sort
import Prescott.AsyncProgram
import Prescott.LogFile
import Prescott.MetricFile
import Prescott.Tasks

namespace Prescott

/-!
# The world of the task services

The state that the task services share: their tables, the map of cron
entries, the images and containers of docker, the stored logs and metrics, the
locked resources, the run queue and the builds dispatched in the background.
An operation is what a service awaits.
-/

/-- The name of the image of a task. -/
def buildTaskIdentifier (taskId : Nat) : String :=
  "prescott_" ++ taskId.repr

/-- A number can be told from its decimal digits. -/
theorem eq_of_repr_eq
    {left right : Nat}
    (same : left.repr = right.repr) :
    left = right := by
  have sameDigits : Nat.toDigits 10 left = Nat.toDigits 10 right := by
    rw [← Nat.toList_repr, ← Nat.toList_repr, same]
  have digits := congrArg (Nat.ofDigitChars 10 · 0) sameDigits
  simpa only [Nat.ofDigitChars_ten_toDigits] using digits

/-- The images of different tasks have different names. -/
theorem eq_of_buildTaskIdentifier_eq
    {taskId other : Nat}
    (same : buildTaskIdentifier taskId = buildTaskIdentifier other) :
    taskId = other :=
  eq_of_repr_eq (String.append_right_inj _ |>.mp same)

/-- A `ScheduledTask` of node-cron; its callback is made from the task alone. -/
structure CronEntry where
  scheduleConfig : String
  running : Bool
  deriving Repr, DecidableEq

/--
The map `tasks` of the cron scheduler.  An entry that `schedule` replaces is
not stopped, so it is kept among the overwritten ones.
-/
structure CronScheduler where
  entries : Nat → Option CronEntry
  overwritten : List (Nat × CronEntry)

namespace CronScheduler

/-- The scheduler without an entry. -/
def empty : CronScheduler where
  entries := fun _ => none
  overwritten := []

/-- Change the entry of one task. -/
def update
    (scheduler : CronScheduler)
    (taskId : Nat)
    (entry : Option CronEntry) :
    CronScheduler :=
  { scheduler with entries := Function.update scheduler.entries taskId entry }

/-- An entry of a task, which replaces an earlier one. -/
def scheduleTask
    (scheduler : CronScheduler)
    (taskId : Nat)
    (scheduleConfig : String) :
    CronScheduler where
  entries :=
    Function.update scheduler.entries taskId
      (some { scheduleConfig, running := false })
  overwritten :=
    match scheduler.entries taskId with
    | some entry => (taskId, entry) :: scheduler.overwritten
    | none => scheduler.overwritten

/-- Stop the job of a task, if there is one. -/
def stop (scheduler : CronScheduler) (taskId : Nat) : CronScheduler :=
  scheduler.update taskId
    ((scheduler.entries taskId).map fun entry =>
      { entry with running := false })

/-- Drop the entry of a task. -/
def deleteTask (scheduler : CronScheduler) (taskId : Nat) : CronScheduler :=
  scheduler.update taskId none

/-- Start the job of a task, if there is one. -/
def start (scheduler : CronScheduler) (taskId : Nat) : CronScheduler :=
  scheduler.update taskId
    ((scheduler.entries taskId).map fun entry =>
      { entry with running := true })

/-- The scheduler holds an entry for the task. -/
def exists? (scheduler : CronScheduler) (taskId : Nat) : Bool :=
  (scheduler.entries taskId).isSome

/-- The scheduler holds a running entry for the task. -/
def isRunning (scheduler : CronScheduler) (taskId : Nat) : Bool :=
  (scheduler.entries taskId).any fun entry => entry.running

section Running

variable {scheduler : CronScheduler}
variable {taskId other : Nat}

theorem isRunning_iff :
    scheduler.isRunning taskId = true ↔
      ∃ entry,
        scheduler.entries taskId = some entry ∧ entry.running = true := by
  simp [isRunning, Option.any_eq_true]

@[simp] theorem isRunning_scheduleTask_self
    {scheduleConfig : String} :
    (scheduler.scheduleTask taskId scheduleConfig).isRunning taskId = false := by
  simp [isRunning, scheduleTask]

@[simp] theorem isRunning_stop_self :
    (scheduler.stop taskId).isRunning taskId = false := by
  cases entry : scheduler.entries taskId <;>
    simp [isRunning, stop, update, entry]

@[simp] theorem isRunning_deleteTask_self :
    (scheduler.deleteTask taskId).isRunning taskId = false := by
  simp [isRunning, deleteTask, update]

/-- A running entry is one that has been there. -/
theorem isRunning_start_self :
    (scheduler.start taskId).isRunning taskId = scheduler.exists? taskId := by
  cases entry : scheduler.entries taskId <;>
    simp [isRunning, start, update, exists?, entry]

theorem isRunning_scheduleTask_other
    {scheduleConfig : String}
    (different : other ≠ taskId) :
    (scheduler.scheduleTask taskId scheduleConfig).isRunning other =
      scheduler.isRunning other := by
  simp [isRunning, scheduleTask, Function.update_of_ne different]

theorem isRunning_stop_other
    (different : other ≠ taskId) :
    (scheduler.stop taskId).isRunning other = scheduler.isRunning other := by
  simp [isRunning, stop, update, Function.update_of_ne different]

theorem isRunning_deleteTask_other
    (different : other ≠ taskId) :
    (scheduler.deleteTask taskId).isRunning other =
      scheduler.isRunning other := by
  simp [isRunning, deleteTask, update, Function.update_of_ne different]

theorem isRunning_start_other
    (different : other ≠ taskId) :
    (scheduler.start taskId).isRunning other = scheduler.isRunning other := by
  simp [isRunning, start, update, Function.update_of_ne different]

end Running

/-- Some entry of the task ticks, held or overwritten. -/
def ticks (scheduler : CronScheduler) (taskId : Nat) : Bool :=
  scheduler.isRunning taskId ||
    scheduler.overwritten.any fun entry =>
      entry.1 == taskId && entry.2.running

end CronScheduler

/-- What an image was built from. -/
structure Image where
  id : Nat
  envInfo : EnvInfo
  steps : List TaskStep
  deriving Repr, DecidableEq

/-- A container of Docker. -/
structure Container where
  name : String
  imageId : Nat
  running : Bool
  exitCode : Int
  deriving Repr, DecidableEq

/-- Docker: the tags of its images, and its containers. -/
structure Docker where
  images : String → Option Image
  nextImageId : Nat
  containers : List Container

namespace Docker

/-- Docker without images and containers. -/
def empty : Docker where
  images := fun _ => none
  nextImageId := 1
  containers := []

/-- `docker build --tag`: the tag moves to the new image. -/
def build
    (docker : Docker)
    (tag : String)
    (envInfo : EnvInfo)
    (steps : List TaskStep) :
    Docker :=
  { docker with
    images :=
      Function.update docker.images tag
        (some { id := docker.nextImageId, envInfo, steps })
    nextImageId := docker.nextImageId + 1 }

/-- `docker rmi`. -/
def removeImage (docker : Docker) (tag : String) : Docker :=
  { docker with images := Function.update docker.images tag none }

/-- `docker run --detach`. -/
def run (docker : Docker) (image : Image) (name : String) : Docker :=
  { docker with
    containers :=
      docker.containers ++
        [{ name, imageId := image.id, running := true, exitCode := 0 }] }

/-- The container with a name. -/
def containerOf (docker : Docker) (name : String) : Option Container :=
  docker.containers.find? fun container => container.name == name

/-- A container terminates. -/
def exit (docker : Docker) (name : String) (exitCode : Int) : Docker :=
  { docker with
    containers :=
      docker.containers.map fun container =>
        if container.name == name && container.running then
          { container with running := false, exitCode }
        else
          container }

/-- `docker rm`. -/
def removeContainer (docker : Docker) (name : String) : Docker :=
  { docker with
    containers :=
      docker.containers.filter fun container => container.name != name }

/-- An image can be removed without force when no container uses it. -/
def isRemovable (docker : Docker) (tag : String) : Bool :=
  match docker.images tag with
  | none => false
  | some image =>
      docker.containers.all fun container => container.imageId != image.id

/-- The running containers of the image that carries a tag. -/
def childrenOf (docker : Docker) (tag : String) : List String :=
  match docker.images tag with
  | none => []
  | some image =>
      (docker.containers.filter fun container =>
        container.running && container.imageId == image.id).map
          Container.name

end Docker

/-- The state that the task services share. -/
structure TaskState where
  tables : TaskTables
  scheduler : CronScheduler
  docker : Docker
  /-- The stored log entries by task and run; `none` is a missing file. -/
  logs : Nat → Nat → Option (List LogEntry)
  metrics : Nat → Nat → Option (List MetricEntry)
  lockedResources : List String
  /-- The builds dispatched in the background that have not begun. -/
  builds : List (Nat × TaskConfigDto)
  queue : List TaskRunHandle
  /-- The number of executors that the queue has begun. -/
  running : Nat

/-- Nothing is stored, scheduled, built or queued. -/
def TaskState.initial : TaskState where
  tables := .empty
  scheduler := .empty
  docker := .empty
  logs := fun _ _ => none
  metrics := fun _ _ => none
  lockedResources := []
  builds := []
  queue := []
  running := 0

/-- The parameter of `buildEnv`; its script is made from tag and steps. -/
structure BuildEnvDto where
  imageTag : String
  envInfo : EnvInfo
  steps : List TaskStep
  deriving Repr, DecidableEq

/-- The operations that the task services await. -/
inductive TaskOp where
  | findTaskById (id : Nat)
  | findTaskByName (name : String)
  | findTasksByActive (active : Bool)
  | insertTask (data : NewTask)
  | updateTaskConfig (id : Nat) (config : TaskConfigDto)
  | deleteTaskById (id : Nat)
  | setTaskActive (id : Nat) (value : Bool)
  | findRunById (id : Nat)
  | findRunsByTask (taskId : Nat)
  | findRunsByTaskAndStatus (taskId : Nat) (status : TaskRunStatus)
  | countRunsByTask (taskId : Nat)
  | insertRun (taskId : Nat) (rank : RunRank) (status : TaskRunStatus)
  | updateRun (id : Nat) (dto : UpdateTaskRunDto)
  | updateRunsByTaskAndStatus
      (taskId : Nat) (status : TaskRunStatus) (dto : UpdateTaskRunDto)
  | schedulerExists (taskId : Nat)
  | schedulerSchedule (taskId : Nat) (scheduleConfig : String)
  | schedulerStop (taskId : Nat)
  | schedulerDelete (taskId : Nat)
  | schedulerStart (taskId : Nat)
  | buildEnv (dto : BuildEnvDto)
  | deleteEnv (envId : String) (isForce : Bool)
  | runEnv (envId : String) (limitations : Option Limitations)
  | getEnvChildren (envId : String)
  | dockerStop (container : String) (timeout : Option Nat)
  | dockerRemove (container : String) (isForce : Bool)
  | dockerWait (container : String)
  | dockerInspectExitCode (container : String)
  | readLog (runHandle : TaskRunHandle)
  | readMetric (runHandle : TaskRunHandle)
  | flushLog (taskId : Nat)
  | flushMetric (taskId : Nat)
  | lockResource (resource : String)
  | unlockResource (resource : String)
  | setTimeout (delay : Nat)
  | dispatchBuild (taskId : Nat) (config : TaskConfigDto)
  | enqueue (runHandle : TaskRunHandle)
  | leaveQueue
  deriving DecidableEq

/-- The types these operations resolve with. -/
abbrev TaskOp.Result : TaskOp → Type
  | .findTaskById _ => Option Task
  | .findTaskByName _ => Option Task
  | .findTasksByActive _ => List Task
  | .insertTask _ => Nat
  | .findRunById _ => Option TaskRun
  | .findRunsByTask _ => List TaskRun
  | .findRunsByTaskAndStatus _ _ => List TaskRun
  | .countRunsByTask _ => Nat
  | .insertRun _ _ _ => TaskRun
  | .updateRunsByTaskAndStatus _ _ _ => Nat
  | .schedulerExists _ => Bool
  | .runEnv _ _ => String
  | .getEnvChildren _ => List String
  | .dockerWait _ => Int
  | .dockerInspectExitCode _ => Int
  | .readLog _ => List Char
  | .readMetric _ => List Char
  | .lockResource _ => Bool
  | .updateTaskConfig _ _ => Unit
  | .deleteTaskById _ => Unit
  | .setTaskActive _ _ => Unit
  | .updateRun _ _ => Unit
  | .schedulerSchedule _ _ => Unit
  | .schedulerStop _ => Unit
  | .schedulerDelete _ => Unit
  | .schedulerStart _ => Unit
  | .buildEnv _ => Unit
  | .deleteEnv _ _ => Unit
  | .dockerStop _ _ => Unit
  | .dockerRemove _ _ => Unit
  | .flushLog _ => Unit
  | .flushMetric _ => Unit
  | .unlockResource _ => Unit
  | .setTimeout _ => Unit
  | .dispatchBuild _ _ => Unit
  | .enqueue _ => Unit
  | .leaveQueue => Unit

/-- The signature of the task services. -/
abbrev taskSignature : Signature where
  Op := TaskOp
  Result := TaskOp.Result

/-- What the code cannot see of an answer. -/
inductive TaskInput where
  | done
  /-- A docker command fails without effect. -/
  | refused (reason : String)
  /-- A build succeeds and the removal of its docker file fails. -/
  | refusedLate (reason : String)
  /-- The name `docker run` is given, which no container has. -/
  | container (name : String)
  /-- The order in which the children of an image are listed. -/
  | children (names : List String)
  /-- The exit code of a container that `docker stop` ends. -/
  | exitCode (code : Int)
  deriving Repr, DecidableEq

/-- What the server is configured with, and the parser of node-cron. -/
structure TaskServerConfig where
  maxConcurrency : Nat
  isValidCron : String → Bool
  regExp : RegExpCompiler
  /-- How `JSON.stringify` writes numbers. -/
  format : Json.NumberFormat Rat := Json.fractionFormat

/-- A statement that reads the tables. -/
def TaskState.read
    {α : Type}
    (state : TaskState)
    (answer : α) :
    Option (Except AppError α × TaskState) :=
  some (.ok answer, state)

/-- A statement that changes the tables. -/
def TaskState.write
    (state : TaskState)
    (tables : TaskTables) :
    Option (Except AppError Unit × TaskState) :=
  some (.ok (), { state with tables })

/-- A call of the scheduler, which is synchronous. -/
def TaskState.reschedule
    (state : TaskState)
    (scheduler : CronScheduler) :
    Option (Except AppError Unit × TaskState) :=
  some (.ok (), { state with scheduler })

/-- A statement whose constraints may fail, which then changes nothing. -/
def TaskState.attempt
    {α : Type}
    (state : TaskState)
    (result : Except AppError (α × TaskTables)) :
    Option (Except AppError α × TaskState) :=
  match result with
  | .ok (value, tables) => some (.ok value, { state with tables })
  | .error reason => some (.error reason, state)

/-- A docker command that succeeds where it can, or fails without effect. -/
def TaskState.command
    {α : Type}
    (state : TaskState)
    (input : TaskInput)
    (succeed : Option (α × Docker)) :
    Option (Except AppError α × TaskState) :=
  match input with
  | .refused reason => some (.error (.failure reason), state)
  | _ =>
      match succeed with
      | some (value, docker) => some (.ok value, { state with docker })
      | none => none

/-- The answers of the operations and their effects. -/
def taskHost (config : TaskServerConfig) :
    Host taskSignature AppError TaskState TaskInput
  | .findTaskById id, _, state => state.read (state.tables.taskOf id)
  | .findTaskByName name, _, state =>
      state.read (state.tables.tasks.first fun task => task.name == name)
  | .findTasksByActive active, _, state =>
      state.read (state.tables.tasks.select fun task => task.active == active)
  | .insertTask data, _, state => state.attempt (state.tables.insertTask data)
  | .updateTaskConfig id config, _, state =>
      state.write (state.tables.setConfig id config)
  | .deleteTaskById id, _, state => state.write (state.tables.deleteTask id)
  | .setTaskActive id value, _, state =>
      state.write (state.tables.setActive id value)
  | .findRunById id, _, state =>
      state.read (state.tables.taskRuns.first fun run => run.id == id)
  | .findRunsByTask taskId, _, state =>
      state.read
        ((state.tables.runsOf taskId).insertionSort fun left right =>
          left.rank.le right.rank)
  | .findRunsByTaskAndStatus taskId status, _, state =>
      state.read
        (((state.tables.runsOf taskId).filter fun run =>
            run.status == status).insertionSort fun left right =>
          left.rank.le right.rank)
  | .countRunsByTask taskId, _, state =>
      state.read (state.tables.runsOf taskId).length
  | .insertRun taskId rank status, _, state =>
      state.attempt (state.tables.insertRun taskId rank status)
  | .updateRun id dto, _, state =>
      state.write (state.tables.updateRuns (fun run => run.id == id) dto)
  | .updateRunsByTaskAndStatus taskId status dto, _, state =>
      some
        (.ok ((state.tables.runsOf taskId).filter fun run =>
            run.status == status).length,
          { state with
            tables :=
              state.tables.updateRuns
                (fun run => run.taskId == taskId && run.status == status)
                dto })
  | .schedulerExists taskId, _, state =>
      some (.ok (state.scheduler.exists? taskId), state)
  | .schedulerSchedule taskId scheduleConfig, _, state =>
      if config.isValidCron scheduleConfig then
        state.reschedule (state.scheduler.scheduleTask taskId scheduleConfig)
      else
        some (.error (.failure "cron expression is invalid"), state)
  | .schedulerStop taskId, _, state =>
      state.reschedule (state.scheduler.stop taskId)
  | .schedulerDelete taskId, _, state =>
      state.reschedule (state.scheduler.deleteTask taskId)
  | .schedulerStart taskId, _, state =>
      state.reschedule (state.scheduler.start taskId)
  | .buildEnv dto, input, state =>
      let built :=
        { state with
          docker := state.docker.build dto.imageTag dto.envInfo dto.steps }
      match input with
      | .refused reason => some (.error (.failure reason), state)
      | .refusedLate reason => some (.error (.failure reason), built)
      | _ => some (.ok (), built)
  | .deleteEnv envId isForce, input, state =>
      state.command input
        (if isForce || state.docker.isRemovable envId then
          some ((), state.docker.removeImage envId)
        else
          none)
  | .runEnv envId _, input, state =>
      state.command input
        (match input, state.docker.images envId with
        | .container name, some image =>
            if (state.docker.containerOf name).isSome then
              none
            else
              some (name, state.docker.run image name)
        | _, _ => none)
  | .getEnvChildren envId, input, state =>
      state.command input
        (match input with
        | .children names =>
            if names.isPerm (state.docker.childrenOf envId) then
              some (names, state.docker)
            else
              none
        | _ => none)
  | .dockerStop container _, input, state =>
      state.command input
        (match input with
        | .exitCode code =>
            (state.docker.containerOf container).map fun _ =>
              ((), state.docker.exit container code)
        | _ => none)
  | .dockerRemove container isForce, input, state =>
      state.command input
        (match state.docker.containerOf container with
        | some found =>
            if isForce || !found.running then
              some ((), state.docker.removeContainer container)
            else
              none
        | none => none)
  | .dockerWait container, input, state =>
      state.command input
        (match state.docker.containerOf container with
        -- the command returns only once the container has terminated
        | some found =>
            if found.running then none else some (found.exitCode, state.docker)
        | none => none)
  | .dockerInspectExitCode container, input, state =>
      state.command input
        ((state.docker.containerOf container).map fun found =>
          (found.exitCode, state.docker))
  | .readLog runHandle, _, state =>
      match state.logs runHandle.taskId runHandle.runId with
      | some entries =>
          some (.ok (consumeLogGenerator config.format.integers entries), state)
      | none => some (.error (.failure "ENOENT"), state)
  | .readMetric runHandle, _, state =>
      match state.metrics runHandle.taskId runHandle.runId with
      | some entries =>
          some (.ok (consumeMetricGenerator config.format entries), state)
      | none => some (.error (.failure "ENOENT"), state)
  | .flushLog taskId, _, state =>
      some
        (.ok (),
          { state with
            logs := Function.update state.logs taskId fun _ => none })
  | .flushMetric taskId, _, state =>
      some
        (.ok (),
          { state with
            metrics := Function.update state.metrics taskId fun _ => none })
  | .lockResource resource, _, state =>
      if state.lockedResources.contains resource then
        some (.ok false, state)
      else
        some
          (.ok true,
            { state with
              lockedResources := resource :: state.lockedResources })
  | .unlockResource resource, _, state =>
      some
        (.ok (),
          { state with
            lockedResources :=
              state.lockedResources.filter fun locked => locked != resource })
  | .setTimeout _, _, state => some (.ok (), state)
  | .dispatchBuild taskId config, _, state =>
      some
        (.ok (), { state with builds := state.builds ++ [(taskId, config)] })
  | .enqueue runHandle, _, state =>
      some (.ok (), { state with queue := state.queue ++ [runHandle] })
  | .leaveQueue, _, state =>
      some (.ok (), { state with running := state.running - 1 })

namespace TaskOp

/-- The operation is a statement of the database. -/
def isStatement : TaskOp → Bool
  | .findTaskById _ | .findTaskByName _ | .findTasksByActive _ | .insertTask _
  | .updateTaskConfig _ _ | .deleteTaskById _ | .setTaskActive _ _
  | .findRunById _ | .findRunsByTask _ | .findRunsByTaskAndStatus _ _
  | .countRunsByTask _ | .insertRun _ _ _ | .updateRun _ _
  | .updateRunsByTaskAndStatus _ _ _ => true
  | _ => false

/-- The operation writes to `tasks`. -/
def writesTasks : TaskOp → Bool
  | .insertTask _ | .updateTaskConfig _ _ | .deleteTaskById _
  | .setTaskActive _ _ => true
  | _ => false

/-- The operation writes to `task_runs`. -/
def writesRuns : TaskOp → Bool
  | .insertRun _ _ _ | .updateRun _ _ | .updateRunsByTaskAndStatus _ _ _
  | .deleteTaskById _ => true
  | _ => false

/-- The operation changes the entries of the scheduler. -/
def reschedules : TaskOp → Bool
  | .schedulerSchedule _ _ | .schedulerStop _ | .schedulerDelete _
  | .schedulerStart _ => true
  | _ => false

/-- The operation locks or unlocks a resource. -/
def locks : TaskOp → Bool
  | .lockResource _ | .unlockResource _ => true
  | _ => false

end TaskOp

/-- What an operation leaves as it is. -/
structure TaskState.Keeps (op : TaskOp) (before after : TaskState) :
    Prop where
  tasks :
    op.writesTasks = false → after.tables.tasks = before.tables.tasks
  taskRuns :
    op.writesRuns = false → after.tables.taskRuns = before.tables.taskRuns
  scheduler :
    op.reschedules = false → after.scheduler = before.scheduler
  lockedResources :
    op.locks = false → after.lockedResources = before.lockedResources
  queue :
    (∀ runHandle, op ≠ .enqueue runHandle) → after.queue = before.queue

/-- A docker command changes nothing but docker. -/
theorem TaskState.command_eq
    {α : Type}
    {state after : TaskState}
    {input : TaskInput}
    {succeed : Option (α × Docker)}
    {answer : Except AppError α}
    (answered : state.command input succeed = some (answer, after)) :
    ∃ docker, after = { state with docker } := by
  unfold command at answered
  split at answered
  · cases answered
    exact ⟨state.docker, rfl⟩
  · split at answered
    · cases answered
      exact ⟨_, rfl⟩
    · cases answered

/-- A statement with constraints changes the tables or nothing. -/
theorem TaskState.attempt_eq
    {α : Type}
    {state after : TaskState}
    {result : Except AppError (α × TaskTables)}
    {answer : Except AppError α}
    (answered : state.attempt result = some (answer, after)) :
    (∃ value tables,
      result = .ok (value, tables) ∧
        answer = .ok value ∧ after = { state with tables }) ∨
      (∃ reason,
        result = .error reason ∧ answer = .error reason ∧ after = state) := by
  unfold attempt at answered
  split at answered
  · cases answered
    exact .inl ⟨_, _, rfl, rfl, rfl⟩
  · cases answered
    exact .inr ⟨_, rfl, rfl, rfl⟩

/-- An insert into `tasks` leaves the runs alone. -/
theorem TaskTables.taskRuns_insertTask
    {tables after : TaskTables}
    {data : NewTask}
    {id : Nat}
    (inserted : tables.insertTask data = .ok (id, after)) :
    after.taskRuns = tables.taskRuns := by
  unfold insertTask at inserted
  split at inserted
  · cases inserted
    rfl
  · cases inserted

/-- An insert into `task_runs` leaves the tasks alone. -/
theorem TaskTables.tasks_insertRun
    {tables after : TaskTables}
    {taskId : Nat}
    {rank : RunRank}
    {status : TaskRunStatus}
    {run : TaskRun}
    (inserted : tables.insertRun taskId rank status = .ok (run, after)) :
    after.tasks = tables.tasks := by
  unfold insertRun at inserted
  split at inserted
  · cases inserted
    rfl
  · cases inserted

/-- Every operation keeps what it does not announce to change. -/
theorem taskHost_keeps
    {config : TaskServerConfig}
    {op : TaskOp}
    {input : TaskInput}
    {before after : TaskState}
    {answer : Except AppError op.Result}
    (answered : taskHost config op input before = some (answer, after)) :
    TaskState.Keeps op before after := by
  cases op with
  | insertTask data =>
      rcases TaskState.attempt_eq answered with
          ⟨_, _, inserted, _, rfl⟩ | ⟨_, _, _, rfl⟩
      · exact ⟨nofun, fun _ => TaskTables.taskRuns_insertTask inserted,
          fun _ => rfl, fun _ => rfl, fun _ => rfl⟩
      · exact ⟨nofun, fun _ => rfl, fun _ => rfl, fun _ => rfl,
          fun _ => rfl⟩
  | insertRun taskId rank status =>
      rcases TaskState.attempt_eq answered with
          ⟨_, _, inserted, _, rfl⟩ | ⟨_, _, _, rfl⟩
      · exact ⟨fun _ => TaskTables.tasks_insertRun inserted, nofun,
          fun _ => rfl, fun _ => rfl, fun _ => rfl⟩
      · exact ⟨fun _ => rfl, nofun, fun _ => rfl, fun _ => rfl,
          fun _ => rfl⟩
  | deleteEnv | runEnv | getEnvChildren | dockerStop | dockerRemove
  | dockerWait | dockerInspectExitCode =>
      obtain ⟨docker, rfl⟩ := TaskState.command_eq answered
      exact ⟨fun _ => rfl, fun _ => rfl, fun _ => rfl, fun _ => rfl,
        fun _ => rfl⟩
  | buildEnv dto =>
      simp only [taskHost] at answered
      split at answered
      all_goals
        cases answered
        exact ⟨fun _ => rfl, fun _ => rfl, fun _ => rfl, fun _ => rfl,
          fun _ => rfl⟩
  | readLog | readMetric =>
      simp only [taskHost] at answered
      split at answered
      all_goals
        cases answered
        exact ⟨fun _ => rfl, fun _ => rfl, fun _ => rfl, fun _ => rfl,
          fun _ => rfl⟩
  | schedulerSchedule taskId scheduleConfig =>
      simp only [taskHost] at answered
      split at answered
      all_goals
        cases answered
        exact ⟨fun _ => rfl, fun _ => rfl, nofun, fun _ => rfl,
          fun _ => rfl⟩
  | lockResource resource =>
      simp only [taskHost] at answered
      split at answered
      all_goals
        cases answered
        exact ⟨fun _ => rfl, fun _ => rfl, fun _ => rfl, nofun,
          fun _ => rfl⟩
  | unlockResource =>
      cases answered
      exact ⟨fun _ => rfl, fun _ => rfl, fun _ => rfl, nofun, fun _ => rfl⟩
  | enqueue runHandle =>
      cases answered
      exact ⟨fun _ => rfl, fun _ => rfl, fun _ => rfl, fun _ => rfl,
        fun other => (other runHandle rfl).elim⟩
  | schedulerStop | schedulerDelete | schedulerStart =>
      cases answered
      exact ⟨fun _ => rfl, fun _ => rfl, nofun, fun _ => rfl, fun _ => rfl⟩
  | updateTaskConfig | setTaskActive =>
      cases answered
      exact ⟨nofun, fun _ => rfl, fun _ => rfl, fun _ => rfl, fun _ => rfl⟩
  | updateRun | updateRunsByTaskAndStatus =>
      cases answered
      exact ⟨fun _ => rfl, nofun, fun _ => rfl, fun _ => rfl, fun _ => rfl⟩
  | deleteTaskById =>
      cases answered
      exact ⟨nofun, nofun, fun _ => rfl, fun _ => rfl, fun _ => rfl⟩
  | findTaskById | findTaskByName | findTasksByActive | findRunById
  | findRunsByTask | findRunsByTaskAndStatus | countRunsByTask
  | schedulerExists | flushLog | flushMetric | setTimeout | dispatchBuild
  | leaveQueue =>
      cases answered
      exact ⟨fun _ => rfl, fun _ => rfl, fun _ => rfl, fun _ => rfl,
        fun _ => rfl⟩

namespace TaskState

variable {config : TaskServerConfig}
variable {op : TaskOp}
variable {input : TaskInput}
variable {before after : TaskState}
variable {answer : Except AppError op.Result}
variable {id : Nat}

/-- A task that a statement finds is a row, and nothing changes. -/
theorem task_of_found
    {task : Task}
    (answered :
      taskHost config (.findTaskById id) input before =
        some (.ok (some task), after)) :
    task ∈ before.tables.tasks.rows ∧ task.id = id ∧ after = before := by
  obtain ⟨found, rfl⟩ := Prod.mk.inj (Option.some.inj answered)
  obtain ⟨member, sameId⟩ := Table.mem_of_first (Except.ok.inj found)
  exact ⟨member, beq_iff_eq.mp sameId, rfl⟩

/-- A task stays active where it is neither deactivated nor deleted. -/
theorem staysActive_of_answered
    (answered : taskHost config op input before = some (answer, after))
    (notDeactivated : op ≠ .setTaskActive id false)
    (notDeleted : op ≠ .deleteTaskById id)
    (active : before.tables.IsActive id) :
    after.tables.IsActive id := by
  cases op with
  | insertTask data =>
      rcases TaskState.attempt_eq answered with
          ⟨_, _, inserted, _, rfl⟩ | ⟨_, _, _, rfl⟩
      · exact active.insertTask inserted
      · exact active
  | updateTaskConfig other newConfig =>
      cases answered
      exact active.setConfig
  | deleteTaskById other =>
      cases answered
      exact active.deleteTask fun same => notDeleted (by rw [same])
  | setTaskActive other value =>
      cases answered
      by_cases same : other = id
      · subst same
        cases value with
        | true => exact .of_activated active.has
        | false => exact (notDeactivated rfl).elim
      · exact active.setActive same
  | _ =>
      unfold TaskTables.IsActive
      rw [(taskHost_keeps answered).tasks rfl]
      exact active

/-- A task stays where it is not deleted. -/
theorem stays_of_answered
    (answered : taskHost config op input before = some (answer, after))
    (notDeleted : op ≠ .deleteTaskById id)
    (has : before.tables.Has id) :
    after.tables.Has id := by
  cases op with
  | insertTask data =>
      rcases TaskState.attempt_eq answered with
          ⟨_, _, inserted, _, rfl⟩ | ⟨_, _, _, rfl⟩
      · exact has.insertTask inserted
      · exact has
  | updateTaskConfig other newConfig =>
      cases answered
      exact has.setConfig
  | deleteTaskById other =>
      cases answered
      exact has.deleteTask fun same => notDeleted (by rw [same])
  | setTaskActive other value =>
      cases answered
      exact has.setActive
  | _ =>
      unfold TaskTables.Has
      rw [(taskHost_keeps answered).tasks rfl]
      exact has

/--
An entry that runs is not the one that has been stopped or deleted; it ran
before, or it has just been started.
-/
theorem ranBefore_of_answered
    (answered : taskHost config op input before = some (answer, after))
    (running : after.scheduler.isRunning id = true) :
    op ≠ .schedulerStop id ∧ op ≠ .schedulerDelete id ∧
      (before.scheduler.isRunning id = true ∨
        op = .schedulerStart id ∧ before.scheduler.exists? id = true) := by
  cases op with
  | schedulerSchedule other scheduleConfig =>
      refine ⟨nofun, nofun, .inl ?_⟩
      simp only [taskHost] at answered
      split at answered <;> cases answered
      · by_cases same : id = other
        · subst same
          rw [CronScheduler.isRunning_scheduleTask_self] at running
          cases running
        · exact (CronScheduler.isRunning_scheduleTask_other same).symm.trans
            running
      · exact running
  | schedulerStop other =>
      cases answered
      by_cases same : id = other
      · subst same
        rw [CronScheduler.isRunning_stop_self] at running
        cases running
      · refine ⟨fun equal => same ?_, nofun, .inl ?_⟩
        · exact (TaskOp.schedulerStop.inj equal).symm
        · exact (CronScheduler.isRunning_stop_other same).symm.trans running
  | schedulerDelete other =>
      cases answered
      by_cases same : id = other
      · subst same
        rw [CronScheduler.isRunning_deleteTask_self] at running
        cases running
      · refine ⟨nofun, fun equal => same ?_, .inl ?_⟩
        · exact (TaskOp.schedulerDelete.inj equal).symm
        · exact (CronScheduler.isRunning_deleteTask_other same).symm.trans
            running
  | schedulerStart other =>
      cases answered
      refine ⟨nofun, nofun, ?_⟩
      by_cases same : id = other
      · subst same
        rw [CronScheduler.isRunning_start_self] at running
        exact .inr ⟨rfl, running⟩
      · exact .inl
          ((CronScheduler.isRunning_start_other same).symm.trans running)
  | _ =>
      rw [(taskHost_keeps answered).scheduler rfl] at running
      exact ⟨nofun, nofun, .inl running⟩

end TaskState

end Prescott
