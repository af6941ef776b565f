import Prescott.TaskService

namespace Prescott

/-!
# The phases of the task calls

How far a call of the task services is, told from the operations it has
awaited and their answers.  All statements about interleavings of task calls
are proved on these phases; that every program goes through them as described
is proved once, here.
-/

/-- What came of a registration, while the lock is still held. -/
inductive Registration where
  | failed
  | refused
  | registered (taskRun : TaskRun)
  deriving Repr, DecidableEq

/-- How far a call is; a phase is named by the operation awaited next. -/
inductive TaskPhase where
  | beginning
  | inserting
  | checkingEntry (taskId : Nat) (taskConfig : TaskConfigDto)
  | scheduling (taskId : Nat) (taskConfig : TaskConfigDto)
  | dispatching (taskId : Nat) (taskConfig : TaskConfigDto)
  /-- `startTask` has only its `setActive(true)` left. -/
  | activating (taskId : Nat)
  /-- `updateTask` has only the update of the stored config left. -/
  | storing (taskId : Nat) (taskConfig : TaskConfigDto)
  /-- `stopTask` has found the task active. -/
  | deactivating (taskId : Nat)
  | unscheduling (taskId : Nat)
  | listing (taskId : Nat)
  /-- So many children are left to be stopped, and then the pending runs. -/
  | stopping (taskId : Nat) (childrenLeft : Nat)
  /-- The entry is deleted next; an update carries the new config along. -/
  | unregistering (taskId : Nat) (taskConfig : Option TaskConfigDto)
  | clearing (taskId : Nat) (taskConfig : Option TaskConfigDto)
  | flushing (taskId : Nat)
  /-- `deleteTask` has only the deletion of the row left. -/
  | deletingRow (taskId : Nat)
  /-- The build has succeeded. -/
  | starting (taskId : Nat)
  /-- The lock is tried, with so many retries left should it be taken. -/
  | locking (taskId : Nat) (times : Option Rat) (retriesLeft : Nat)
  | counting (taskId : Nat) (limit : Rat)
  | creating (taskId : Nat) (rank : RunRank)
  | unlocking (taskId : Nat) (registration : Registration)
  | disabling (taskId : Nat)
  | enqueueing (runHandle : TaskRunHandle)
  /-- The executor has found the task active. -/
  | launching (config : TaskConfigDto)
  | marking (container : String) (times : Option Rat)
  | waiting (container : String) (times : Option Rat)
  | finishing (container : String) (exitCode : Int) (times : Option Rat)
  | removing (container : String) (times : Option Rat)
  /-- The run was the last one, and its executor stops the task. -/
  | autoUnscheduling
  | autoStopping
  /-- The executor has failed and stops its task. -/
  | failing
  | leaving
  | settled (resolved : Bool)
  deriving Repr, DecidableEq

/-- The task a call names, if it names one. -/
def TaskCall.taskId? : TaskCall → Option Nat
  | .createTask _ _ _ => none
  | .deleteTask taskId => some taskId
  | .stopTask taskId => some taskId
  | .startTask taskId => some taskId
  | .updateTask taskId _ => some taskId
  | .build taskId _ => some taskId
  | .callback taskId => some taskId
  | .executor runHandle => some runHandle.taskId
  | .exit _ _ => none

/-- The row `createTask` inserts. -/
def newTaskRow
    (groupId userId : Nat)
    (taskConfig : TaskConfigDto) :
    NewTask where
  userId := userId
  groupId := groupId
  name := buildTaskUniqueName groupId taskConfig.name
  active := true
  config := taskConfig

/-- The operation a call awaits first. -/
def TaskCall.firstOp : TaskCall → Option TaskOp
  | .createTask groupId _ taskConfig =>
      some (.findTaskByName (buildTaskUniqueName groupId taskConfig.name))
  | .deleteTask taskId => some (.findTaskById taskId)
  | .stopTask taskId => some (.findTaskById taskId)
  | .startTask taskId => some (.findTaskById taskId)
  | .updateTask taskId _ => some (.findTaskById taskId)
  | .build taskId taskConfig =>
      some (.buildEnv
        { imageTag := buildTaskIdentifier taskId
          envInfo := taskConfig.envInfo
          steps := taskConfig.config.appConfig.steps })
  | .callback taskId => some (.findTaskById taskId)
  | .executor runHandle => some (.findTaskById runHandle.taskId)
  | .exit _ _ => none

namespace TaskPhase

/-- Where `scheduleExecutable` leads. -/
def afterSchedule
    (call : TaskCall)
    (taskId : Nat)
    (taskConfig : TaskConfigDto) :
    TaskPhase :=
  match call with
  | .startTask _ => .activating taskId
  | .updateTask _ _ => .storing taskId taskConfig
  | _ => .settled true

/-- Where `stopTask` leads; an executor leaves its queue afterwards. -/
def afterStop (call : TaskCall) (resolved : Bool) : TaskPhase :=
  match call with
  | .executor _ => .leaving
  | _ => .settled resolved

/-- The operations that may be awaited next. -/
def permits (call : TaskCall) : TaskPhase → TaskOp → Prop
  | .beginning, op => call.firstOp = some op
  | .inserting, op =>
      ∃ groupId userId taskConfig,
        call = .createTask groupId userId taskConfig ∧
          op = .insertTask (newTaskRow groupId userId taskConfig)
  | .checkingEntry taskId _, op => op = .schedulerExists taskId
  | .scheduling taskId taskConfig, op =>
      op = .schedulerSchedule taskId taskConfig.config.scheduleConfig
  | .dispatching taskId taskConfig, op => op = .dispatchBuild taskId taskConfig
  | .activating taskId, op => op = .setTaskActive taskId true
  | .storing taskId taskConfig, op => op = .updateTaskConfig taskId taskConfig
  | .deactivating taskId, op => op = .setTaskActive taskId false
  | .unscheduling taskId, op => op = .schedulerStop taskId
  | .listing taskId, op => op = .getEnvChildren (buildTaskIdentifier taskId)
  | .stopping taskId childrenLeft, op =>
      (0 < childrenLeft ∧
          ∃ container, op = .dockerStop container (some 5000)) ∨
        (childrenLeft = 0 ∧
          op =
            .updateRunsByTaskAndStatus taskId .pending
              { status := .stopped })
  | .unregistering taskId _, op => op = .schedulerDelete taskId
  | .clearing taskId _, op =>
      op = .getEnvChildren (buildTaskIdentifier taskId) ∨
        (∃ container, op = .dockerRemove container true) ∨
        op = .deleteEnv (buildTaskIdentifier taskId) true
  | .flushing taskId, op => op = .flushLog taskId ∨ op = .flushMetric taskId
  | .deletingRow taskId, op => op = .deleteTaskById taskId
  | .starting taskId, op => op = .schedulerStart taskId
  | .locking taskId _ _, op =>
      op = .lockResource (toString taskId) ∨ op = .setTimeout 1000
  | .counting taskId _, op => op = .countRunsByTask taskId
  | .creating taskId rank, op => op = .insertRun taskId rank .pending
  | .unlocking taskId _, op => op = .unlockResource (toString taskId)
  | .disabling taskId, op => op = .schedulerStop taskId
  | .enqueueing runHandle, op =>
      (∃ taskId, call = .callback taskId) ∧ op = .enqueue runHandle
  | .launching config, op =>
      ∃ runHandle,
        call = .executor runHandle ∧
          op =
            .runEnv (buildTaskIdentifier runHandle.taskId)
              config.config.appConfig.limitations
  | .marking container _, op =>
      ∃ runHandle,
        call = .executor runHandle ∧
          op =
            .updateRun runHandle.runId
              { status := .running, handleId := some container }
  | .waiting container _, op =>
      op = .dockerWait container ∨ op = .dockerInspectExitCode container
  | .finishing _ exitCode _, op =>
      ∃ runHandle,
        call = .executor runHandle ∧
          op =
            .updateRun runHandle.runId
              { status := if exitCode == 0 then .succeed else .failed }
  | .removing container _, op =>
      ∃ runHandle,
        call = .executor runHandle ∧ op = .dockerRemove container false
  | .autoUnscheduling, op =>
      ∃ runHandle,
        call = .executor runHandle ∧ op = .schedulerStop runHandle.taskId
  | .autoStopping, op =>
      ∃ runHandle,
        call = .executor runHandle ∧
          (op = .getEnvChildren (buildTaskIdentifier runHandle.taskId) ∨
            (∃ container, op = .dockerStop container (some 5000)) ∨
            op = .deleteEnv (buildTaskIdentifier runHandle.taskId) false ∨
            op = .setTaskActive runHandle.taskId false)
  | .failing, op =>
      ∃ runHandle,
        call = .executor runHandle ∧ op = .findTaskById runHandle.taskId
  | .leaving, op => op = .leaveQueue
  | .settled _, _ => False

/-- The phase after the first answer. -/
def afterFirst (call : TaskCall) :
    (op : TaskOp) → Except AppError op.Result → TaskPhase
  | .findTaskByName _, .ok none => .inserting
  | .findTaskById _, .ok (some task) =>
      match call with
      | .deleteTask taskId =>
          if task.active then .settled false else .unregistering taskId none
      | .stopTask taskId =>
          if task.active then .deactivating taskId else .settled false
      | .startTask taskId =>
          if task.active then
            .settled false
          else
            .checkingEntry taskId task.config
      | .updateTask taskId taskConfig =>
          .unregistering taskId
            (some { task.config with config := taskConfig })
      | .callback taskId =>
          if task.active then
            .locking taskId task.config.times 4
          else
            .settled true
      | .executor _ =>
          if task.active then .launching task.config else .leaving
      | _ => .settled false
  | .findTaskById _, .ok none =>
      match call with
      | .callback _ => .settled true
      | .executor _ => .leaving
      | _ => .settled false
  | .buildEnv _, .ok () =>
      match call with
      | .build taskId _ => .starting taskId
      | _ => .settled false
  | _, _ =>
      match call with
      | .executor _ => .failing
      | _ => .settled false

/-- The phase of a call after an answer. -/
def advance (call : TaskCall) (phase : TaskPhase) (op : TaskOp)
    (answer : Except AppError op.Result) : TaskPhase :=
  match phase with
  | .beginning => afterFirst call op answer
  | .inserting =>
      match op, answer with
      | .insertTask data, .ok taskId => .checkingEntry taskId data.config
      | _, _ => .settled false
  | .checkingEntry taskId taskConfig =>
      match op, answer with
      | .schedulerExists _, .ok true => afterSchedule call taskId taskConfig
      | .schedulerExists _, .ok false => .scheduling taskId taskConfig
      | _, _ => .settled false
  | .scheduling taskId taskConfig =>
      match answer with
      | .ok _ => .dispatching taskId taskConfig
      | .error _ => .settled false
  | .dispatching taskId taskConfig =>
      match answer with
      | .ok _ => afterSchedule call taskId taskConfig
      | .error _ => .settled false
  | .activating _ | .storing _ _ | .deletingRow _ | .starting _ | .enqueueing _
  | .disabling _ =>
      match answer with
      | .ok _ => .settled true
      | .error _ => .settled false
  | .deactivating taskId =>
      match answer with
      | .ok _ => .unscheduling taskId
      | .error _ => afterStop call false
  | .unscheduling taskId =>
      match answer with
      | .ok _ => .listing taskId
      | .error _ => afterStop call false
  | .listing taskId =>
      match op, answer with
      | .getEnvChildren _, .ok names => .stopping taskId names.length
      | _, _ => afterStop call false
  | .stopping taskId (childrenLeft + 1) => .stopping taskId childrenLeft
  | .stopping _ 0 =>
      match answer with
      | .ok _ => afterStop call true
      | .error _ => afterStop call false
  | .unregistering taskId taskConfig =>
      match answer with
      | .ok _ => .clearing taskId taskConfig
      | .error _ => .settled false
  | .clearing taskId taskConfig =>
      match op, answer with
      | .dockerRemove _ _, _ => .clearing taskId taskConfig
      | .getEnvChildren _, .ok _ => .clearing taskId taskConfig
      | .deleteEnv _ _, .ok _ =>
          match taskConfig with
          | some taskConfig => .checkingEntry taskId taskConfig
          | none => .flushing taskId
      | _, _ => .settled false
  | .flushing taskId =>
      match op, answer with
      | .flushLog _, .ok _ => .flushing taskId
      | .flushMetric _, .ok _ => .deletingRow taskId
      | _, _ => .settled false
  | .locking taskId times retriesLeft =>
      match op, answer with
      | .lockResource _, .ok true =>
          match times with
          | some limit => .counting taskId limit
          | none => .creating taskId .infinity
      | .lockResource _, .ok false => .locking taskId times retriesLeft
      | .setTimeout _, .ok _ =>
          match retriesLeft with
          | 0 => .settled false
          | retriesLeft + 1 => .locking taskId times retriesLeft
      | _, _ => .settled false
  | .counting taskId limit =>
      match op, answer with
      | .countRunsByTask _, .ok runsCount =>
          if (runsCount : Rat) < limit then
            .creating taskId (.finite (runsCount + 1))
          else
            .unlocking taskId .refused
      | _, _ => .unlocking taskId .failed
  | .creating taskId _ =>
      match op, answer with
      | .insertRun _ _ _, .ok taskRun => .unlocking taskId (.registered taskRun)
      | _, _ => .unlocking taskId .failed
  | .unlocking taskId registration =>
      match registration, answer with
      | .registered taskRun, .ok _ =>
          .enqueueing { taskId, runId := taskRun.id, runRank := taskRun.rank }
      | .refused, .ok _ => .disabling taskId
      | _, _ => .settled false
  | .launching config =>
      match op, answer with
      | .runEnv _ _, .ok container => .marking container config.times
      | _, _ => .failing
  | .marking container times =>
      match answer with
      | .ok _ => .waiting container times
      | .error _ => .failing
  | .waiting container times =>
      match op, answer with
      | .dockerWait _, .ok exitCode => .finishing container exitCode times
      | .dockerWait _, .error _ => .waiting container times
      | .dockerInspectExitCode _, .ok exitCode =>
          .finishing container exitCode times
      | _, _ => .failing
  | .finishing container _ times =>
      match answer with
      | .ok _ => .removing container times
      | .error _ => .failing
  | .removing _ times =>
      match call, times, answer with
      | .executor runHandle, some limit, .ok _ =>
          if runHandle.runRank.reaches limit then
            .autoUnscheduling
          else
            .leaving
      | _, none, .ok _ => .leaving
      | _, _, _ => .failing
  | .autoUnscheduling =>
      match answer with
      | .ok _ => .autoStopping
      | .error _ => .failing
  | .autoStopping =>
      match op, answer with
      | .setTaskActive _ _, .ok _ => .leaving
      | .dockerStop _ _, _ => .autoStopping
      | _, .ok _ => .autoStopping
      | _, .error _ => .failing
  | .failing =>
      match call, op, answer with
      | .executor runHandle, .findTaskById _, .ok (some task) =>
          if task.active then .deactivating runHandle.taskId else .leaving
      | _, _, _ => .leaving
  | .leaving =>
      match answer with
      | .ok _ => .settled true
      | .error _ => .settled false
  | .settled resolved => .settled resolved

end TaskPhase

/-- The protocol of the task calls. -/
abbrev taskProtocol :
    Protocol taskSignature AppError TaskCall TaskReply where
  Phase := TaskPhase
  start := fun call =>
    match call with
    | .exit _ _ => .settled true
    | _ => .beginning
  permits := TaskPhase.permits
  advance := TaskPhase.advance
  finishes := fun _ phase outcome => phase = .settled outcome.isOk

namespace TaskPhase

variable {call : TaskCall}
variable {taskId : Nat}

/-- A program leads to one phase when it resolves and to another otherwise. -/
def splits
    {α : Type}
    (resolved rejected : TaskPhase) :
    Except AppError α → TaskPhase → Prop
  | .ok _, phase => phase = resolved
  | .error _, phase => phase = rejected

/-- The settled promises of the children, which the phases may count down. -/
theorem leads_forAllSettled
    {phases : Nat → TaskPhase}
    {callbackFn : EnvHandle → TaskProgram Unit}
    (next :
      ∀ childrenLeft handle,
        taskProtocol.Leads call (fun _ reached => reached = phases childrenLeft)
          (phases (childrenLeft + 1)) (callbackFn handle))
    (handleIds : List String) :
    taskProtocol.Leads call
      (fun outcome reached => outcome = .ok () ∧ reached = phases 0)
      (phases handleIds.length)
      (TaskExecutorService.forAllSettled callbackFn handleIds) := by
  induction handleIds with
  | nil =>
      exact ⟨rfl, rfl⟩
  | cons handleId rest inductionHypothesis =>
      have attempted :
          taskProtocol.Leads call
            (fun outcome reached =>
              (∃ result, outcome = .ok result) ∧ reached = phases rest.length)
            (phases (rest.length + 1)) (callbackFn ⟨handleId⟩).attempt :=
        (next rest.length ⟨handleId⟩).attempt fun outcome _ same =>
          ⟨⟨outcome, rfl⟩, same⟩
      refine attempted.bind ?_ ?_
      · rintro _ _ ⟨_, rfl⟩
        exact inductionHypothesis
      · rintro reason _ ⟨⟨_, resolved⟩, _⟩
        cases resolved

/-- All children are asked for once and then dealt with one by one. -/
theorem leads_callForAllChildren
    (phases : Nat → TaskPhase)
    {phase rejected : TaskPhase}
    {envId : String}
    {callbackFn : EnvHandle → TaskProgram Unit}
    (asks : phase.permits call (.getEnvChildren envId))
    (found :
      ∀ handleIds,
        phase.advance call (.getEnvChildren envId) (.ok handleIds) =
          phases handleIds.length)
    (failed :
      ∀ reason,
        phase.advance call (.getEnvChildren envId) (.error reason) = rejected)
    (next :
      ∀ childrenLeft handle,
        taskProtocol.Leads call (fun _ reached => reached = phases childrenLeft)
          (phases (childrenLeft + 1)) (callbackFn handle)) :
    taskProtocol.Leads call (splits (phases 0) rejected) phase
      (TaskExecutorService.callForAllChildren envId callbackFn) := by
  refine Protocol.leads_perform_bind.mpr
    ⟨asks, fun handleIds => ?_, failed⟩
  rw [show taskProtocol.advance call phase (.getEnvChildren envId)
    (.ok handleIds) = phases handleIds.length from found handleIds]
  refine (leads_forAllSettled next handleIds).mono ?_
  rintro _ _ ⟨rfl, rfl⟩
  rfl

theorem leads_scheduleExecutable
    {taskConfig : TaskConfigDto} :
    taskProtocol.Leads call
      (splits (afterSchedule call taskId taskConfig) (.settled false))
      (.checkingEntry taskId taskConfig)
      (TaskExecutorService.scheduleExecutable taskId taskConfig) := by
  refine Protocol.leads_perform_bind.mpr ⟨rfl, fun found => ?_, fun _ => rfl⟩
  cases found with
  | true =>
      rfl
  | false =>
      refine Protocol.leads_perform_bind.mpr
        ⟨rfl, fun _ => ?_, fun _ => rfl⟩
      exact ⟨rfl, fun answer => by cases answer <;> rfl⟩

/-- Where `deleteExecutable` leads. -/
def afterClearing (taskId : Nat) : Option TaskConfigDto → TaskPhase
  | some taskConfig => .checkingEntry taskId taskConfig
  | none => .flushing taskId

theorem leads_deleteExecutable
    {taskConfig : Option TaskConfigDto} :
    taskProtocol.Leads call
      (splits (afterClearing taskId taskConfig) (.settled false))
      (.unregistering taskId taskConfig)
      (TaskExecutorService.deleteExecutable taskId) := by
  refine Protocol.leads_perform_bind.mpr ⟨rfl, fun _ => ?_, fun _ => rfl⟩
  have clearing :
      taskProtocol.Leads call
        (splits (.clearing taskId taskConfig) (.settled false))
        (.clearing taskId taskConfig)
        (TaskExecutorService.deleteAllChildren
          (buildTaskIdentifier taskId) true) :=
    leads_callForAllChildren (fun _ => .clearing taskId taskConfig) (.inl rfl)
      (fun _ => rfl) (fun _ => rfl)
      fun _ handle => ⟨.inr (.inl ⟨_, rfl⟩), fun _ => rfl⟩
  refine clearing.bind ?_ fun _ _ rejected => rejected
  rintro _ _ rfl
  refine ⟨.inr (.inr rfl), fun answer => ?_⟩
  cases answer with
  | ok value =>
      cases taskConfig <;> rfl
  | error reason =>
      rfl

/-- The stop by a user, and by an executor that failed. -/
theorem leads_stopExecutable_user :
    taskProtocol.Leads call
      (splits (.stopping taskId 0) (afterStop call false))
      (.unscheduling taskId)
      (TaskExecutorService.stopExecutable taskId .user) := by
  refine Protocol.leads_perform_bind.mpr ⟨rfl, fun _ => ?_, fun _ => rfl⟩
  exact leads_callForAllChildren (.stopping taskId) rfl
    (fun _ => rfl) (fun _ => rfl) fun childrenLeft handle =>
      ⟨.inl ⟨Nat.succ_pos childrenLeft, _, rfl⟩, fun _ => rfl⟩

/-- The stop at the run limit. -/
theorem leads_stopExecutable_system
    {runHandle : TaskRunHandle} :
    taskProtocol.Leads (.executor runHandle)
      (splits .autoStopping .failing) .autoUnscheduling
      (TaskExecutorService.stopExecutable runHandle.taskId .system) := by
  refine Protocol.leads_perform_bind.mpr
    ⟨⟨runHandle, rfl, rfl⟩, fun _ => ?_, fun _ => rfl⟩
  exact leads_callForAllChildren (fun _ => .autoStopping)
    ⟨runHandle, rfl, .inl rfl⟩ (fun _ => rfl) (fun _ => rfl)
    fun _ handle =>
      ⟨⟨runHandle, rfl, .inr (.inl ⟨_, rfl⟩)⟩, fun _ => rfl⟩

/-- `stopTask`, from wherever a call comes to look for the task. -/
theorem leads_stopTask
    {phase : TaskPhase}
    (looks : phase.permits call (.findTaskById taskId))
    (found :
      ∀ task,
        phase.advance call (.findTaskById taskId) (.ok (some task)) =
          if task.active then .deactivating taskId else afterStop call false)
    (missing :
      phase.advance call (.findTaskById taskId) (.ok none) =
        afterStop call false)
    (failed :
      ∀ reason,
        phase.advance call (.findTaskById taskId) (.error reason) =
          afterStop call false) :
    taskProtocol.Leads call
      (splits (afterStop call true) (afterStop call false)) phase
      (TaskService.stopTask taskId) := by
  simp only [TaskService.stopTask, TaskDao.findByIdThrowable, bind_assoc]
  refine Protocol.leads_perform_bind.mpr ⟨looks, fun answer => ?_, failed⟩
  cases answer with
  | none =>
      exact missing
  | some task =>
      rw [show taskProtocol.advance call phase (.findTaskById taskId)
        (.ok (some task)) = _ from found task, pure_bind]
      split
      · refine Protocol.leads_perform_bind.mpr
          ⟨rfl, fun _ => ?_, fun _ => rfl⟩
        refine leads_stopExecutable_user.bind ?_ fun _ _ rejected => rejected
        rintro _ _ rfl
        exact Protocol.leads_perform_bind.mpr
          ⟨.inr ⟨rfl, rfl⟩, fun _ => rfl, fun _ => rfl⟩
      · rfl

/-- What a callback does with the outcome of a registration. -/
def registered (taskId : Nat) :
    Except AppError (Option TaskRun) → TaskPhase → Prop
  | .ok none, phase => phase = .disabling taskId
  | .ok (some taskRun), phase =>
      phase =
        .enqueueing { taskId, runId := taskRun.id, runRank := taskRun.rank }
  | .error _, phase => phase = .settled false

/-- The registration as the lock is released. -/
def unlocks (taskId : Nat) :
    Except AppError (Option TaskRun) → TaskPhase → Prop
  | .ok none, phase => phase = .unlocking taskId .refused
  | .ok (some taskRun), phase =>
      phase = .unlocking taskId (.registered taskRun)
  | .error _, phase => phase = .unlocking taskId .failed

theorem leads_create
    {rank : RunRank} :
    taskProtocol.Leads call (unlocks taskId) (.creating taskId rank)
      (do
        let taskRun ← TaskRunDao.create taskId rank .pending
        return some taskRun) :=
  Protocol.leads_perform_bind.mpr ⟨rfl, fun _ => rfl, fun _ => rfl⟩

/-- The phase in which a registration begins under the lock. -/
def locked (taskId : Nat) : Option Rat → TaskPhase
  | some limit => .counting taskId limit
  | none => .creating taskId .infinity

theorem leads_register
    (times : Option Rat) :
    taskProtocol.Leads call (unlocks taskId) (locked taskId times)
      (TaskRunService.register taskId times) := by
  cases times with
  | none =>
      exact leads_create
  | some limit =>
      simp only [TaskRunService.register, TaskRunService.isRunAllowed,
        bind_assoc]
      refine Protocol.leads_perform_bind.mpr
        ⟨rfl, fun runsCount => ?_, fun _ => rfl⟩
      change taskProtocol.Leads call (unlocks taskId)
        (if (runsCount : Rat) < limit then
          .creating taskId (.finite (runsCount + 1))
        else
          .unlocking taskId .refused) _
      by_cases allowed : (runsCount : Rat) < limit
      · simp only [pure_bind, allowed, decide_true, if_true]
        exact leads_create
      · simp only [pure_bind, allowed, decide_false, if_false,
          Bool.false_eq_true]
        rfl

/-- The mutex locks, retries, runs the registration and unlocks. -/
theorem leads_runImpl
    (times : Option Rat)
    (retriesLeft : Nat) :
    taskProtocol.Leads call (registered taskId)
      (.locking taskId times retriesLeft)
      (TaskRunService.mutex.runImpl taskMutexActions (toString taskId)
        (TaskRunService.register taskId times) (retriesLeft + 1)) := by
  have runs :
      taskProtocol.Leads call (registered taskId) (locked taskId times)
        ((TaskRunService.register taskId times).finallyDo
          (taskMutexActions.unlock (toString taskId))) := by
    refine (leads_register times).finallyDo ?_
    rintro (reason | (_ | taskRun)) _ rfl
    · exact ⟨rfl, fun answer => by cases answer <;> rfl⟩
    · exact ⟨rfl, fun answer => by cases answer <;> rfl⟩
    · exact ⟨rfl, fun answer => by cases answer <;> rfl⟩
  have begins
      (left : Nat) :
      taskProtocol.advance call (.locking taskId times left)
          (.lockResource (toString taskId)) (.ok true) =
        locked taskId times := by
    cases times <;> rfl
  induction retriesLeft with
  | zero =>
      refine Protocol.leads_perform_bind.mpr
        ⟨.inl rfl, fun isFree => ?_, fun _ => rfl⟩
      cases isFree with
      | false =>
          exact Protocol.leads_perform_bind.mpr
            ⟨.inr rfl, fun _ => rfl, fun _ => rfl⟩
      | true =>
          rw [begins]
          exact runs
  | succ retriesLeft inductionHypothesis =>
      refine Protocol.leads_perform_bind.mpr
        ⟨.inl rfl, fun isFree => ?_, fun _ => rfl⟩
      cases isFree with
      | false =>
          exact Protocol.leads_perform_bind.mpr
            ⟨.inr rfl, fun _ => inductionHypothesis, fun _ => rfl⟩
      | true =>
          rw [begins]
          exact runs

theorem leads_tryToRegister
    (times : Option Rat) :
    taskProtocol.Leads call (registered taskId) (.locking taskId times 4)
      (TaskRunService.tryToRegister taskId times) :=
  leads_runImpl times 4

/-- The callback of a cron entry. -/
theorem conforms_callback :
    taskProtocol.Conforms (.callback taskId) .beginning
      (taskBody (.callback taskId)) := by
  simp only [taskBody, TaskService.callback, TaskService.callbackFn,
    TaskService.isTaskActive, bind_assoc]
  refine Protocol.conforms_perform_bind.mpr
    ⟨rfl, fun found => ?_, fun _ => rfl⟩
  cases found with
  | none =>
      rfl
  | some task =>
      rw [show taskProtocol.advance (.callback taskId) .beginning
          (.findTaskById taskId) (.ok (some task)) =
        if task.active then .locking taskId task.config.times 4
        else .settled true from rfl]
      cases isActive : task.active with
      | false =>
          simp only [pure_bind, isActive, Bool.false_eq_true, if_false]
          rfl
      | true =>
          simp only [pure_bind, isActive, if_true, TaskService.configOf,
            bind_assoc]
          refine (leads_tryToRegister task.config.times).bind ?_
            fun _ _ failed => failed
          rintro (_ | taskRun) _ rfl
          · simp only [bind_assoc]
            exact Protocol.leads_perform_bind.mpr
              ⟨rfl, fun _ => rfl, fun _ => rfl⟩
          · exact Protocol.leads_perform_bind.mpr
              ⟨⟨⟨taskId, rfl⟩, rfl⟩, fun _ => rfl, fun _ => rfl⟩

theorem conforms_createTask
    {groupId userId : Nat}
    {taskConfig : TaskConfigDto} :
    taskProtocol.Conforms (.createTask groupId userId taskConfig) .beginning
      (taskBody (.createTask groupId userId taskConfig)) := by
  simp only [taskBody, TaskService.createTask, bind_assoc]
  refine Protocol.conforms_perform_bind.mpr
    ⟨rfl, fun found => ?_, fun _ => rfl⟩
  cases found with
  | some task =>
      rfl
  | none =>
      simp only [bind_assoc]
      refine Protocol.conforms_perform_bind.mpr
        ⟨⟨groupId, userId, taskConfig, rfl, rfl⟩, fun taskId => ?_,
          fun _ => rfl⟩
      refine leads_scheduleExecutable.bind ?_ fun _ _ rejected => rejected
      rintro _ _ rfl
      rfl

theorem conforms_deleteTask :
    taskProtocol.Conforms (.deleteTask taskId) .beginning
      (taskBody (.deleteTask taskId)) := by
  simp only [taskBody, TaskService.deleteTask, TaskDao.findByIdThrowable,
    bind_assoc]
  refine Protocol.conforms_perform_bind.mpr
    ⟨rfl, fun found => ?_, fun _ => rfl⟩
  cases found with
  | none =>
      rfl
  | some task =>
      rw [show taskProtocol.advance (.deleteTask taskId) .beginning
          (.findTaskById taskId) (.ok (some task)) =
        if task.active then .settled false
        else .unregistering taskId none from rfl]
      cases isActive : task.active with
      | true =>
          simp only [pure_bind, isActive, if_true]
          rfl
      | false =>
          simp only [pure_bind, isActive, Bool.false_eq_true, if_false,
            bind_assoc]
          refine leads_deleteExecutable.bind ?_ fun _ _ rejected => rejected
          rintro _ _ rfl
          simp only [TaskRunService.flushAll, bind_assoc]
          refine Protocol.conforms_perform_bind.mpr
            ⟨.inl rfl, fun _ => ?_, fun _ => rfl⟩
          refine Protocol.conforms_perform_bind.mpr
            ⟨.inr rfl, fun _ => ?_, fun _ => rfl⟩
          exact Protocol.conforms_perform_bind.mpr
            ⟨rfl, fun _ => rfl, fun _ => rfl⟩

theorem conforms_stopTask :
    taskProtocol.Conforms (.stopTask taskId) .beginning
      (taskBody (.stopTask taskId)) := by
  have stops :
      taskProtocol.Leads (.stopTask taskId)
        (splits (.settled true) (.settled false)) .beginning
        (TaskService.stopTask taskId) :=
    leads_stopTask rfl (fun _ => rfl) rfl fun _ => rfl
  refine stops.bind ?_ fun _ _ rejected => rejected
  rintro _ _ rfl
  rfl

theorem conforms_startTask :
    taskProtocol.Conforms (.startTask taskId) .beginning
      (taskBody (.startTask taskId)) := by
  simp only [taskBody, TaskService.startTask, TaskDao.findByIdThrowable,
    bind_assoc]
  refine Protocol.conforms_perform_bind.mpr
    ⟨rfl, fun found => ?_, fun _ => rfl⟩
  cases found with
  | none =>
      rfl
  | some task =>
      rw [show taskProtocol.advance (.startTask taskId) .beginning
          (.findTaskById taskId) (.ok (some task)) =
        if task.active then .settled false
        else .checkingEntry taskId task.config from rfl]
      cases isActive : task.active with
      | true =>
          simp only [pure_bind, isActive, if_true]
          rfl
      | false =>
          simp only [pure_bind, isActive, Bool.false_eq_true, if_false,
            bind_assoc]
          refine leads_scheduleExecutable.bind ?_
            fun _ _ rejected => rejected
          rintro _ _ rfl
          exact Protocol.conforms_perform_bind.mpr
            ⟨rfl, fun _ => rfl, fun _ => rfl⟩

theorem conforms_updateTask
    {taskConfig : LocalTaskConfig} :
    taskProtocol.Conforms (.updateTask taskId taskConfig) .beginning
      (taskBody (.updateTask taskId taskConfig)) := by
  simp only [taskBody, TaskService.updateTask, TaskDao.findByIdThrowable,
    TaskExecutorService.updateExecutable, bind_assoc]
  refine Protocol.conforms_perform_bind.mpr
    ⟨rfl, fun found => ?_, fun _ => rfl⟩
  cases found with
  | none =>
      rfl
  | some task =>
      simp only [pure_bind]
      refine leads_deleteExecutable.bind ?_ fun _ _ rejected => rejected
      rintro _ _ rfl
      refine leads_scheduleExecutable.bind ?_ fun _ _ rejected => rejected
      rintro _ _ rfl
      exact Protocol.conforms_perform_bind.mpr
        ⟨rfl, fun _ => rfl, fun _ => rfl⟩

theorem conforms_build
    {taskConfig : TaskConfigDto} :
    taskProtocol.Conforms (.build taskId taskConfig) .beginning
      (taskBody (.build taskId taskConfig)) := by
  simp only [taskBody, TaskExecutorService.buildAndStart, bind_assoc]
  refine Protocol.conforms_perform_bind.mpr
    ⟨rfl, fun _ => ?_, fun _ => rfl⟩
  exact Protocol.conforms_perform_bind.mpr
    ⟨rfl, fun _ => rfl, fun _ => rfl⟩

variable {runHandle : TaskRunHandle}

/-- `docker wait` and its fallback. -/
theorem leads_wait
    {container : String}
    {times : Option Rat} :
    taskProtocol.Leads (.executor runHandle)
      (fun outcome phase =>
        match outcome with
        | .ok exitCode => phase = .finishing container exitCode times
        | .error _ => phase = .failing)
      (.waiting container times) (EnvHandle.wait ⟨container⟩) := by
  have waits :
      taskProtocol.Leads (.executor runHandle)
        (fun outcome phase =>
          match outcome with
          | .ok exitCode => phase = .finishing container exitCode times
          | .error _ => phase = .waiting container times)
        (.waiting container times)
        (TaskOp.perform (.dockerWait container)) :=
    ⟨.inl rfl, fun answer => by cases answer <;> rfl⟩
  refine waits.tryCatch (fun _ _ resolved => resolved) ?_
  rintro _ _ rfl
  exact ⟨.inr rfl, fun answer => by cases answer <;> rfl⟩

/-- The stop at the run limit, where the run has reached it. -/
theorem leads_stopAtLimit
    {times : Option Rat} :
    taskProtocol.Leads (.executor runHandle) (splits .leaving .failing)
      (match times with
      | none => .leaving
      | some limit =>
          if runHandle.runRank.reaches limit then
            .autoUnscheduling
          else
            .leaving)
      (TaskService.stopAtLimit runHandle times) := by
  cases times with
  | none =>
      rfl
  | some limit =>
      simp only [TaskService.stopAtLimit]
      split
      · refine leads_stopExecutable_system.bind ?_
          fun _ _ rejected => rejected
        rintro _ _ rfl
        refine Protocol.leads_perform_bind.mpr
          ⟨⟨runHandle, rfl, .inr (.inr (.inl rfl))⟩,
            fun _ => ?_, fun _ => rfl⟩
        exact ⟨⟨runHandle, rfl, .inr (.inr (.inr rfl))⟩,
          fun answer => by cases answer <;> rfl⟩
      · rfl

/-- A run, up to its end or its failure. -/
theorem leads_runTaskImpl :
    taskProtocol.Leads (.executor runHandle) (splits .leaving .failing)
      .beginning (TaskService.runTaskImpl runHandle) := by
  simp only [TaskService.runTaskImpl, TaskService.isTaskActive, bind_assoc]
  refine Protocol.leads_perform_bind.mpr
    ⟨rfl, fun found => ?_, fun _ => rfl⟩
  cases found with
  | none =>
      rfl
  | some task =>
      rw [show taskProtocol.advance (.executor runHandle) .beginning
          (.findTaskById runHandle.taskId) (.ok (some task)) =
        if task.active then .launching task.config else .leaving from rfl]
      cases isActive : task.active with
      | false =>
          simp only [pure_bind, isActive, Bool.false_eq_true, if_false]
          rfl
      | true =>
          simp only [pure_bind, isActive, if_true, TaskService.configOf,
            TaskExecutorService.runExecutable, bind_assoc]
          refine Protocol.leads_perform_bind.mpr
            ⟨⟨runHandle, rfl, rfl⟩, fun container => ?_, fun _ => rfl⟩
          refine Protocol.leads_perform_bind.mpr
            ⟨⟨runHandle, rfl, rfl⟩, fun _ => ?_, fun _ => rfl⟩
          refine leads_wait.bind ?_ fun _ _ failed => failed
          rintro exitCode _ rfl
          refine Protocol.leads_perform_bind.mpr
            ⟨⟨runHandle, rfl, rfl⟩, fun _ => ?_, fun _ => rfl⟩
          refine Protocol.leads_perform_bind.mpr
            ⟨⟨runHandle, rfl, rfl⟩, fun _ => ?_, fun _ => ?_⟩
          · have leads := @leads_stopAtLimit runHandle task.config.times
            cases times : task.config.times with
            | none =>
                rw [times] at leads
                exact leads
            | some limit =>
                rw [times] at leads
                exact leads
          · cases task.config.times <;> rfl

/-- An executor stops its task when it fails, and leaves the queue. -/
theorem conforms_executor :
    taskProtocol.Conforms (.executor runHandle) .beginning
      (taskBody (.executor runHandle)) := by
  have runs :
      taskProtocol.Leads (.executor runHandle) (fun _ phase => phase = .leaving)
        .beginning (TaskService.runTask runHandle) := by
    refine leads_runTaskImpl.tryCatch (fun _ _ resolved => resolved) ?_
    rintro reason _ rfl
    have stops :
        taskProtocol.Leads (.executor runHandle) (splits .leaving .leaving)
          .failing (TaskService.stopTask runHandle.taskId) :=
      leads_stopTask ⟨runHandle, rfl, rfl⟩ (fun _ => rfl) rfl fun _ => rfl
    refine stops.mono ?_
    rintro (reason | value) _ rfl
    · rfl
    · rfl
  have attempted :
      taskProtocol.Leads (.executor runHandle)
        (fun outcome phase =>
          (∃ result, outcome = .ok result) ∧ phase = .leaving)
        .beginning (TaskService.runTask runHandle).attempt :=
    runs.attempt fun outcome _ leaves => ⟨⟨outcome, rfl⟩, leaves⟩
  simp only [taskBody, TaskService.executor, bind_assoc]
  refine attempted.bind ?_ ?_
  · rintro _ _ ⟨_, rfl⟩
    exact Protocol.leads_perform_bind.mpr
      ⟨rfl, fun _ => rfl, fun _ => rfl⟩
  · rintro reason _ ⟨⟨_, resolved⟩, _⟩
    cases resolved

/-- Every call goes through the phases of the protocol. -/
theorem conforms_taskBody
    (call : TaskCall) :
    taskProtocol.Conforms call (taskProtocol.start call) (taskBody call) := by
  cases call with
  | createTask groupId userId taskConfig => exact conforms_createTask
  | deleteTask taskId => exact conforms_deleteTask
  | stopTask taskId => exact conforms_stopTask
  | startTask taskId => exact conforms_startTask
  | updateTask taskId taskConfig => exact conforms_updateTask
  | build taskId taskConfig => exact conforms_build
  | callback taskId => exact conforms_callback
  | executor runHandle => exact conforms_executor
  | exit container exitCode => rfl

end TaskPhase

end Prescott
