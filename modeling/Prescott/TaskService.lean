import Prescott.AsyncInterleaving
import Prescott.InMemoryMutex
import Prescott.TaskWorld

namespace Prescott

/-!
# The task services

The programs of `DockerEnvHandle`, `TaskExecutorService`, `TaskRunService` and
`TaskService`.  A function that a service hands to the run queue is modelled
by the handle it was made from.
-/

/-- The programs of the task services. -/
abbrev TaskProgram (α : Type) :=
  Async taskSignature AppError α

/-- Await one operation. -/
abbrev TaskOp.perform (op : TaskOp) : TaskProgram op.Result :=
  @Async.perform taskSignature AppError op

namespace TaskDao

/-- The task with an identifier. -/
def findById (id : Nat) : TaskProgram (Option Task) :=
  TaskOp.perform (.findTaskById id)

/-- The task with an identifier, which has to exist. -/
def findByIdThrowable (id : Nat) : TaskProgram Task := do
  match ← findById id with
  | none => throw (.entityNotFound s!"Task not found by id={id}")
  | some task => return task

/-- The task with a unique name. -/
def findByName (name : String) : TaskProgram (Option Task) :=
  TaskOp.perform (.findTaskByName name)

/-- The tasks that are active or not. -/
def findAllByActive (isActive : Bool) : TaskProgram (List Task) :=
  TaskOp.perform (.findTasksByActive isActive)

/-- Insert a task and return its identifier. -/
def create (task : NewTask) : TaskProgram Nat :=
  TaskOp.perform (.insertTask task)

/-- Store a config of a task. -/
def update (id : Nat) (config : TaskConfigDto) : TaskProgram Unit :=
  TaskOp.perform (.updateTaskConfig id config)

/-- Delete a task; its runs go with it. -/
def delete (id : Nat) : TaskProgram Unit :=
  TaskOp.perform (.deleteTaskById id)

/-- Mark a task as active or not. -/
def setActive (id : Nat) (value : Bool) : TaskProgram Unit :=
  TaskOp.perform (.setTaskActive id value)

end TaskDao

namespace TaskRunDao

/-- Insert a run and return its row. -/
def create (taskId : Nat) (rank : RunRank) (status : TaskRunStatus) :
    TaskProgram TaskRun :=
  TaskOp.perform (.insertRun taskId rank status)

/-- The run with an identifier. -/
def findOneById (id : Nat) : TaskProgram (Option TaskRun) :=
  TaskOp.perform (.findRunById id)

/-- The runs of a task. -/
def findAllByTaskId (taskId : Nat) : TaskProgram (List TaskRun) :=
  TaskOp.perform (.findRunsByTask taskId)

/-- The runs of a task with a status. -/
def findAllByTaskIdAndStatus (taskId : Nat) (status : TaskRunStatus) :
    TaskProgram (List TaskRun) :=
  TaskOp.perform (.findRunsByTaskAndStatus taskId status)

/-- The number of runs of a task. -/
def countByTaskId (taskId : Nat) : TaskProgram Nat :=
  TaskOp.perform (.countRunsByTask taskId)

/-- Store what a run has come to. -/
def update (id : Nat) (dto : UpdateTaskRunDto) : TaskProgram Unit :=
  TaskOp.perform (.updateRun id dto)

/-- Store it for all runs of a task with a status. -/
def updateAllByTaskIdAndStatus
    (taskId : Nat)
    (status : TaskRunStatus)
    (dto : UpdateTaskRunDto) :
    TaskProgram Nat :=
  TaskOp.perform (.updateRunsByTaskAndStatus taskId status dto)

end TaskRunDao

/-- The signals `DockerEnvHandle.stop` tells apart. -/
inductive StopEnvHandleSignalType where
  | timeout
  | user
  | system
  deriving Repr, DecidableEq

/-- A `DockerEnvHandle` is the name of its container. -/
structure EnvHandle where
  container : String
  deriving Repr, DecidableEq

namespace EnvHandle

/-- `docker stop`; only the timer of a time to live kills instead. -/
def stop
    (handle : EnvHandle)
    (timeout : Option Nat)
    (signal : StopEnvHandleSignalType) :
    TaskProgram Unit :=
  match signal with
  | .timeout => TaskOp.perform (.dockerStop handle.container none)
  | .user | .system => TaskOp.perform (.dockerStop handle.container timeout)

/-- `docker rm` -/
def delete (handle : EnvHandle) (isForce : Bool) : TaskProgram Unit :=
  TaskOp.perform (.dockerRemove handle.container isForce)

/-- `docker wait`, and `docker container inspect` when that fails. -/
def wait (handle : EnvHandle) : TaskProgram Int :=
  (TaskOp.perform (.dockerWait handle.container)).tryCatch fun _ =>
    TaskOp.perform (.dockerInspectExitCode handle.container)

end EnvHandle

namespace TaskExecutorService

/--
The settled promises of `callForAllChildren`: the commands for the children
are awaited in the order in which they take effect, and a failure is dropped.
-/
def forAllSettled (callbackFn : EnvHandle → TaskProgram Unit) :
    List String → TaskProgram Unit
  | [] => pure ()
  | handleId :: rest => do
      let _ ← (callbackFn ⟨handleId⟩).attempt
      forAllSettled callbackFn rest

/-- Nothing is awaited but what the callback awaits for a child. -/
theorem forAllSettled_awaits
    {allowed : TaskOp → Prop}
    {callbackFn : EnvHandle → TaskProgram Unit}
    (each : ∀ envHandle, (callbackFn envHandle).AwaitsOnly allowed)
    (handleIds : List String) :
    (forAllSettled callbackFn handleIds).AwaitsOnly allowed := by
  induction handleIds with
  | nil => trivial
  | cons handleId rest inductionHypothesis =>
      exact .bind (each ⟨handleId⟩).attempt fun _ => inductionHypothesis

/-- Call a function for every container of an image, and wait for all of them. -/
def callForAllChildren
    (envId : String)
    (callbackFn : EnvHandle → TaskProgram Unit) :
    TaskProgram Unit := do
  let handleIds ← TaskOp.perform (.getEnvChildren envId)
  forAllSettled callbackFn handleIds

/-- Remove all containers of an image. -/
def deleteAllChildren (envId : String) (isForce : Bool) : TaskProgram Unit :=
  callForAllChildren envId fun envHandle => envHandle.delete isForce

/-- Stop all containers of an image, each within five seconds. -/
def stopAllChildren
    (envId : String)
    (stopSignal : StopEnvHandleSignalType) :
    TaskProgram Unit :=
  callForAllChildren envId fun envHandle =>
    envHandle.stop (some 5000) stopSignal

/-- Build the image of a task anew. -/
def buildClearTask
    (identifier : String)
    (envInfo : EnvInfo)
    (steps : List TaskStep) :
    TaskProgram Unit :=
  TaskOp.perform (.buildEnv { imageTag := identifier, envInfo, steps })

/-- What `scheduleExecutable` dispatches without awaiting it. -/
def buildAndStart (taskId : Nat) (taskConfig : TaskConfigDto) :
    TaskProgram Unit := do
  buildClearTask (buildTaskIdentifier taskId) taskConfig.envInfo
    taskConfig.config.appConfig.steps
  TaskOp.perform (.schedulerStart taskId)

/-- Schedule a task unless it is scheduled, and dispatch its build. -/
def scheduleExecutable (taskId : Nat) (taskConfig : TaskConfigDto) :
    TaskProgram Unit := do
  match ← TaskOp.perform (.schedulerExists taskId) with
  | true => pure ()
  | false =>
      TaskOp.perform
        (.schedulerSchedule taskId taskConfig.config.scheduleConfig)
      TaskOp.perform (.dispatchBuild taskId taskConfig)

/-- Put a run into the queue. -/
def enqueueExecutable (runHandle : TaskRunHandle) : TaskProgram Unit :=
  TaskOp.perform (.enqueue runHandle)

/-- Run a container of the image of a task. -/
def runExecutable (taskId : Nat) (config : LocalTaskConfig) :
    TaskProgram EnvHandle := do
  let container ←
    TaskOp.perform
      (.runEnv (buildTaskIdentifier taskId) config.appConfig.limitations)
  return ⟨container⟩

/-- Take a task out of the schedule for the time being. -/
def unscheduleExecutable (taskId : Nat) : TaskProgram Unit :=
  TaskOp.perform (.schedulerStop taskId)

/-- Take a task out of the schedule, and remove its containers and its image. -/
def deleteExecutable (taskId : Nat) : TaskProgram Unit := do
  TaskOp.perform (.schedulerDelete taskId)
  deleteAllChildren (buildTaskIdentifier taskId) true
  TaskOp.perform (.deleteEnv (buildTaskIdentifier taskId) true)

/-- Remove the image of a task. -/
def deleteExecutableEnv (taskId : Nat) : TaskProgram Unit :=
  TaskOp.perform (.deleteEnv (buildTaskIdentifier taskId) false)

/-- Take a task out of the schedule and stop its containers. -/
def stopExecutable
    (taskId : Nat)
    (stopSignal : StopEnvHandleSignalType) :
    TaskProgram Unit := do
  TaskOp.perform (.schedulerStop taskId)
  stopAllChildren (buildTaskIdentifier taskId) stopSignal

/-- Delete the executable of a task and schedule it anew. -/
def updateExecutable (taskId : Nat) (newConfig : TaskConfigDto) :
    TaskProgram Unit := do
  deleteExecutable taskId
  scheduleExecutable taskId newConfig

end TaskExecutorService

/-- The mutex of `TaskRunService` acts on the locked resources of the state. -/
def taskMutexActions : MutexActions taskSignature AppError where
  lock resource := TaskOp.perform (.lockResource resource)
  unlock resource := TaskOp.perform (.unlockResource resource)
  setTimeout delay := TaskOp.perform (.setTimeout delay)
  failure := .failure

namespace TaskRunService

/-- `new InMemoryMutex(1_000, 5)`. -/
def mutex : InMemoryMutex where
  retryTimeout := 1000
  retryNumber := 5

/-- The run with an identifier, which has to exist. -/
def getOneThrowable (runId : Nat) : TaskProgram TaskRun := do
  match ← TaskRunDao.findOneById runId with
  | none => throw (.entityNotFound s!"TaskRun is not found: runId={runId}")
  | some run => return run

/-- The run of a task, which has to be one of it. -/
def getOneThrowableByTaskId (taskId runId : Nat) : TaskProgram TaskRun := do
  let taskRun ← getOneThrowable runId
  if taskRun.taskId ≠ taskId then
    throw (.badRequest
      s!"TaskRun[id={runId}] does not belong to taskId={taskId}")
  else
    return taskRun

/-- The runs of a task. -/
def getAll (taskId : Nat) : TaskProgram (List TaskRun) :=
  TaskRunDao.findAllByTaskId taskId

/-- The runs of a task with a status. -/
def getAllByStatus (taskId : Nat) (status : TaskRunStatus) :
    TaskProgram (List TaskRun) :=
  TaskRunDao.findAllByTaskIdAndStatus taskId status

/-- Whether a run is allowed, and the number of runs so far. -/
def isRunAllowed (taskId : Nat) (limit : Option Rat) :
    TaskProgram (Bool × RunRank) := do
  match limit with
  | none => return (true, .infinity)
  | some limit =>
      let runsCount ← TaskRunDao.countByTaskId taskId
      return (decide ((runsCount : Rat) < limit), .finite runsCount)

/-- What `tryToRegister` runs under the lock of the task. -/
def register (taskId : Nat) (limit : Option Rat) :
    TaskProgram (Option TaskRun) := do
  let (isAllowed, runsCount) ← isRunAllowed taskId limit
  if isAllowed then
    let taskRun ← TaskRunDao.create taskId runsCount.next .pending
    return some taskRun
  else
    return none

/-- Register a run while the mutex of its task is held. -/
def tryToRegister (taskId : Nat) (limit : Option Rat) :
    TaskProgram (Option TaskRun) :=
  mutex.run taskMutexActions (toString taskId) (register taskId limit)

/-- Record that a run has started in a container. -/
def start (runHandle : TaskRunHandle) (envHandle : EnvHandle) :
    TaskProgram Unit :=
  TaskRunDao.update runHandle.runId
    { status := .running, handleId := some envHandle.container }

/-- Record how a run has ended. -/
def finish (runHandle : TaskRunHandle) (isSuccess : Bool) :
    TaskProgram Unit :=
  TaskRunDao.update runHandle.runId
    { status := if isSuccess then .succeed else .failed }

/-- Stop the runs of a task that wait in the queue. -/
def stopAll (taskId : Nat) : TaskProgram Unit := do
  let _ ←
    TaskRunDao.updateAllByTaskIdAndStatus taskId .pending
      { status := .stopped }
  return ()

/-- Remove the files of all runs of a task. -/
def flushAll (taskId : Nat) : TaskProgram Unit := do
  TaskOp.perform (.flushLog taskId)
  TaskOp.perform (.flushMetric taskId)

/-- `searchLog` of the file provider opens the file only for a valid filter. -/
def searchLogs
    (regExp : RegExpCompiler)
    (format : Json.NumberFormat Rat)
    (taskId runId : Nat)
    (dto : EntrySearchDto)
    (paging : EntryPaging) :
    TaskProgram (EntryPage LogEntry) := do
  let taskRun ← getOneThrowableByTaskId taskId runId
  match buildLogMatcher regExp dto with
  | .error reason => throw reason
  | .ok _ =>
      let file ←
        TaskOp.perform (.readLog { taskId, runId, runRank := taskRun.rank })
      match searchLogFile regExp format.integers file dto paging with
      | .error reason => throw reason
      | .ok page => return page

/-- `searchMetric` of the file provider. -/
def searchMetrics
    (format : Json.NumberFormat Rat)
    (taskId runId : Nat)
    (dto : EntrySearchDto)
    (paging : EntryPaging) :
    TaskProgram (EntryPage MetricEntry) := do
  let taskRun ← getOneThrowableByTaskId taskId runId
  let file ←
    TaskOp.perform (.readMetric { taskId, runId, runRank := taskRun.rank })
  match searchMetricFile format file dto paging with
  | .error reason => throw reason
  | .ok page => return page

/-- `aggregateMetric` of the file provider. -/
def aggregateMetrics
    (format : Json.NumberFormat Rat)
    (taskId runId : Nat)
    (search : EntrySearchDto)
    (apply : String) :
    TaskProgram (List (String × MetricValue)) := do
  let taskRun ← getOneThrowableByTaskId taskId runId
  let file ←
    TaskOp.perform (.readMetric { taskId, runId, runRank := taskRun.rank })
  match aggregateMetricFile format file search apply with
  | .error reason => throw reason
  | .ok aggregated => return aggregated

end TaskRunService

/-- The name of a row, unique over all groups. -/
def buildTaskUniqueName (groupId : Nat) (name : String) : String :=
  groupId.repr ++ "_" ++ name

namespace TaskService

/-- Schedule a task. -/
def register (taskId : Nat) (taskConfig : TaskConfigDto) :
    TaskProgram Unit :=
  TaskExecutorService.scheduleExecutable taskId taskConfig

/-- Put the pending runs of a task into the queue again. -/
def enqueuePendingRuns (task : Task) : TaskProgram Unit := do
  let pendingRuns ← TaskRunService.getAllByStatus task.id .pending
  pendingRuns.forM fun taskRun =>
    TaskExecutorService.enqueueExecutable
      { taskId := task.id, runId := taskRun.id, runRank := taskRun.rank }

/-- What the server does with the tasks it finds when it starts. -/
def registerFromDatabase : TaskProgram Unit := do
  let tasks ← TaskDao.findAllByActive true
  tasks.forM fun task => do
    enqueuePendingRuns task
    register task.id task.config

/-- The task if there is one, and whether it is active. -/
def isTaskActive (taskId : Nat) : TaskProgram (Bool × Option Task) := do
  match ← TaskDao.findById taskId with
  | none => return (false, none)
  | some task => return (task.active, some task)

/-- `(task as Task).config`; on `null` the access raises a `TypeError`. -/
def configOf : Option Task → TaskProgram TaskConfigDto
  | some task => return task.config
  | none => throw (.typeError "Cannot read properties of null")

/-- What `buildTaskCallbackFn` returns, with the run it builds an executor for. -/
def callbackFn (taskId : Nat) : TaskProgram (Option TaskRunHandle) := do
  let (isActive, task) ← isTaskActive taskId
  if isActive then
    let config ← configOf task
    match ← TaskRunService.tryToRegister taskId config.times with
    | none =>
        TaskExecutorService.unscheduleExecutable taskId
        return none
    | some taskRun =>
        return some
          { taskId, runId := taskRun.id, runRank := taskRun.rank }
  else
    return none

/-- The callback that `scheduleExecutable` gives to the scheduler. -/
def callback (taskId : Nat) : TaskProgram Unit := do
  match ← callbackFn taskId with
  | none => pure ()
  | some runHandle => TaskExecutorService.enqueueExecutable runHandle

/-- The stop at the end of the last run. -/
def stopAtLimit (runHandle : TaskRunHandle) (times : Option Rat) :
    TaskProgram Unit := do
  match times with
  | none => pure ()
  | some limit =>
      if runHandle.runRank.reaches limit then
        TaskExecutorService.stopExecutable runHandle.taskId .system
        TaskExecutorService.deleteExecutableEnv runHandle.taskId
        TaskDao.setActive runHandle.taskId false
      else
        pure ()

/--
An executor up to its end: launch the container of a run, wait for it, and
record how it ended.
-/
def runTaskImpl (runHandle : TaskRunHandle) : TaskProgram Unit := do
  let (isRunAllowed, task) ← isTaskActive runHandle.taskId
  if isRunAllowed then
    let taskConfig ← configOf task
    let envHandle ←
      TaskExecutorService.runExecutable runHandle.taskId taskConfig.config
    TaskRunService.start runHandle envHandle
    let exitCode ← envHandle.wait
    TaskRunService.finish runHandle (exitCode == 0)
    envHandle.delete false
    stopAtLimit runHandle taskConfig.times
  else
    pure ()

/-- Create a task and schedule it, unless its name is taken. -/
def createTask (groupId userId : Nat) (taskConfig : TaskConfigDto) :
    TaskProgram Nat := do
  let uniqueName := buildTaskUniqueName groupId taskConfig.name
  match ← TaskDao.findByName uniqueName with
  | some _ =>
      throw (.entityConflict s!"Task with name={uniqueName} already exists")
  | none =>
      let taskId ←
        TaskDao.create
          { userId
            groupId
            name := uniqueName
            active := true
            config := taskConfig }
      register taskId taskConfig
      return taskId

/-- Delete a task that is not active, with all that belongs to it. -/
def deleteTask (taskId : Nat) : TaskProgram Unit := do
  let task ← TaskDao.findByIdThrowable taskId
  if task.active then
    throw (.badRequest s!"Cannot delete active task: taskId={taskId}")
  else
    TaskExecutorService.deleteExecutable taskId
    TaskRunService.flushAll taskId
    TaskDao.delete taskId

/-- Stop a task that is active. -/
def stopTask (taskId : Nat) : TaskProgram Unit := do
  let task ← TaskDao.findByIdThrowable taskId
  if task.active then
    TaskDao.setActive taskId false
    TaskExecutorService.stopExecutable taskId .user
    TaskRunService.stopAll taskId
  else
    throw (.badRequest s!"Cannot stop NOT active task: taskId={taskId}")

/-- Start a task that is not active. -/
def startTask (taskId : Nat) : TaskProgram Unit := do
  let task ← TaskDao.findByIdThrowable taskId
  if task.active then
    throw (.badRequest s!"Cannot start active task: taskId={taskId}")
  else
    register taskId task.config
    TaskDao.setActive taskId true

/-- Store another config of a task, whose executable is deleted and scheduled anew. -/
def updateTask (taskId : Nat) (taskConfig : LocalTaskConfig) :
    TaskProgram Unit := do
  let task ← TaskDao.findByIdThrowable taskId
  let newConfig := { task.config with config := taskConfig }
  TaskExecutorService.updateExecutable taskId newConfig
  TaskDao.update taskId newConfig

/-- The task is answered under the name in its config. -/
def getTask (taskId : Nat) : TaskProgram Task := do
  let task ← TaskDao.findByIdThrowable taskId
  return { task with name := task.config.name }

/-- A run that fails stops its task. -/
def runTask (runHandle : TaskRunHandle) : TaskProgram Unit :=
  (runTaskImpl runHandle).tryCatch fun _ => stopTask runHandle.taskId

/-- An executor as `executeNext` runs it: its failure is logged. -/
def executor (runHandle : TaskRunHandle) : TaskProgram Unit := do
  let _ ← (runTask runHandle).attempt
  TaskOp.perform .leaveQueue

end TaskService

/-- A call of the services that runs concurrently with the others. -/
inductive TaskCall where
  | createTask (groupId userId : Nat) (taskConfig : TaskConfigDto)
  | deleteTask (taskId : Nat)
  | stopTask (taskId : Nat)
  | startTask (taskId : Nat)
  | updateTask (taskId : Nat) (taskConfig : LocalTaskConfig)
  /-- A build that `scheduleExecutable` has dispatched. -/
  | build (taskId : Nat) (taskConfig : TaskConfigDto)
  /-- A cron entry of the task fires. -/
  | callback (taskId : Nat)
  /-- The queue begins the executor of a run. -/
  | executor (runHandle : TaskRunHandle)
  /-- A container terminates by itself. -/
  | exit (container : String) (exitCode : Int)
  deriving Repr, DecidableEq

/-- What a call resolves with. -/
inductive TaskReply where
  | taskId (id : Nat)
  | done
  deriving Repr, DecidableEq

/-- The program of a call. -/
def taskBody : TaskCall → TaskProgram TaskReply
  | .createTask groupId userId taskConfig => do
      let taskId ← TaskService.createTask groupId userId taskConfig
      return .taskId taskId
  | .deleteTask taskId => do
      TaskService.deleteTask taskId
      return .done
  | .stopTask taskId => do
      TaskService.stopTask taskId
      return .done
  | .startTask taskId => do
      TaskService.startTask taskId
      return .done
  | .updateTask taskId taskConfig => do
      TaskService.updateTask taskId taskConfig
      return .done
  | .build taskId taskConfig => do
      TaskExecutorService.buildAndStart taskId taskConfig
      return .done
  | .callback taskId => do
      TaskService.callback taskId
      return .done
  | .executor runHandle => do
      TaskService.executor runHandle
      return .done
  | .exit _ _ => return .done

/-- When a call can begin, and what its beginning changes. -/
def beginTaskCall (config : TaskServerConfig) :
    TaskCall → TaskState → Option TaskState
  | .build taskId taskConfig, state =>
      if (taskId, taskConfig) ∈ state.builds then
        some { state with builds := state.builds.erase (taskId, taskConfig) }
      else
        none
  | .callback taskId, state =>
      if state.scheduler.ticks taskId then some state else none
  | .executor runHandle, state =>
      -- `executeNext` shifts the queue while fewer than the maximum run
      if state.queue.head? = some runHandle ∧
          state.running < config.maxConcurrency then
        some
          { state with
            queue := state.queue.tail
            running := state.running + 1 }
      else
        none
  | .exit container exitCode, state =>
      some { state with docker := state.docker.exit container exitCode }
  | _, state => some state

/-- The call has waited in the queue or among the dispatched builds. -/
def TaskCall.hasWaited : TaskCall → Bool
  | .build _ _ | .executor _ => true
  | _ => false

/-- What the beginning of a call changes. -/
inductive TaskCall.Begins (before : TaskState) :
    TaskCall → TaskState → Prop where
  | build
      {taskId : Nat}
      {taskConfig : TaskConfigDto} :
      Begins before (.build taskId taskConfig)
        { before with builds := before.builds.erase (taskId, taskConfig) }
  | executor
      {runHandle : TaskRunHandle}
      {rest : List TaskRunHandle}
      (next : before.queue = runHandle :: rest) :
      Begins before (.executor runHandle)
        { before with queue := rest, running := before.running + 1 }
  | exit
      {container : String}
      {exitCode : Int} :
      Begins before (.exit container exitCode)
        { before with docker := before.docker.exit container exitCode }
  | plain
      {call : TaskCall}
      (atOnce : call.hasWaited = false) :
      Begins before call before

theorem begins_of_begun
    {config : TaskServerConfig}
    {call : TaskCall}
    {before after : TaskState}
    (begun : beginTaskCall config call before = some after) :
    call.Begins before after := by
  cases call with
  | build taskId taskConfig =>
      simp only [beginTaskCall] at begun
      split at begun
      · cases begun
        exact .build
      · cases begun
  | callback taskId =>
      simp only [beginTaskCall] at begun
      split at begun
      · cases begun
        exact .plain rfl
      · cases begun
  | executor runHandle =>
      simp only [beginTaskCall] at begun
      split at begun
      · rename_i isNext
        cases begun
        exact .executor
          (List.cons_head?_tail (Option.mem_def.mpr isNext.1)).symm
      · cases begun
  | exit container exitCode =>
      cases begun
      exact .exit
  | createTask | deleteTask | stopTask | startTask | updateTask =>
      cases begun
      exact .plain rfl

/-- The beginning of a call changes neither tables, entries nor locks. -/
theorem beginTaskCall_keeps
    {config : TaskServerConfig}
    {call : TaskCall}
    {before after : TaskState}
    (begun : beginTaskCall config call before = some after) :
    after.tables = before.tables ∧
      after.scheduler = before.scheduler ∧
      after.lockedResources = before.lockedResources := by
  cases begins_of_begun begun <;> exact ⟨rfl, rfl, rfl⟩

/-- The task services. -/
def taskServices (config : TaskServerConfig) :
    Service taskSignature AppError TaskState TaskInput TaskCall TaskReply where
  body := taskBody
  host := taskHost config
  begin? := beginTaskCall config

end Prescott
