import Prescott.CronActivity
import Prescott.TaskTransitions

namespace Prescott

/-!
# The statuses of the runs

A run is carried by one call at a time: by the callback that has registered
it, by the queue, and then by its executor.  How far the carrier is tells what
the status of the row has to be, provided that a stop does not fall between an
executor's look at the task and its start, and that a task is not started
again while a stopped run still waits.
-/

/-- A status may stay or move on. -/
def TaskRunStatus.CanBecome : TaskRunStatus → TaskRunStatus → Prop
  | .pending, .running | .pending, .stopped => True
  | .running, .succeed | .running, .failed => True
  | before, after => before = after

theorem TaskRunStatus.CanBecome.refl
    (status : TaskRunStatus) :
    status.CanBecome status := by
  cases status <;> rfl

/-- Rows that stay move on, and new rows are pending. -/
def TaskTables.StatusesMove (before after : TaskTables) : Prop :=
  ∀ run ∈ after.taskRuns.rows,
    (∃ old ∈ before.taskRuns.rows,
      old.id = run.id ∧ old.status.CanBecome run.status) ∨
    ((∀ old ∈ before.taskRuns.rows, old.id ≠ run.id) ∧
      run.status = .pending)

/-- Where a row of `task_runs` comes from in one operation. -/
inductive RunOrigin (op : TaskOp) (before : TaskTables) (run : TaskRun) :
    Prop where
  | kept
      {old : TaskRun}
      (member : old ∈ before.taskRuns.rows)
      (sameId : old.id = run.id)
      (sameTask : old.taskId = run.taskId)
      (sameStatus : old.status = run.status)
  | updated
      {old : TaskRun}
      {dto : UpdateTaskRunDto}
      (member : old ∈ before.taskRuns.rows)
      (sameId : old.id = run.id)
      (sameTask : old.taskId = run.taskId)
      (isOp : op = .updateRun run.id dto)
      (status : run.status = dto.status)
  | swept
      {old : TaskRun}
      {dto : UpdateTaskRunDto}
      (member : old ∈ before.taskRuns.rows)
      (sameId : old.id = run.id)
      (sameTask : old.taskId = run.taskId)
      (isOp : op = .updateRunsByTaskAndStatus run.taskId old.status dto)
      (status : run.status = dto.status)
  | inserted
      {rank : RunRank}
      (isOp : op = .insertRun run.taskId rank run.status)
      (fresh : run.id = before.taskRuns.nextId)

/-- What an operation does to the rows of `task_runs`. -/
structure RunsStep (op : TaskOp) (before after : TaskTables) : Prop where
  nextId_le : before.taskRuns.nextId ≤ after.taskRuns.nextId
  origin : ∀ run ∈ after.taskRuns.rows, RunOrigin op before run

section Host

variable {config : TaskServerConfig}
variable {op : TaskOp}
variable {input : TaskInput}
variable {before after : TaskState}
variable {answer : Except AppError op.Result}
variable {taskId : Nat}

theorem RunsStep.of_eq
    (same : after.tables.taskRuns = before.tables.taskRuns) :
    RunsStep op before.tables after.tables := by
  constructor
  · rw [same]
  · intro run member
    rw [same] at member
    exact .kept member rfl rfl rfl

theorem runsStep_of_answered
    (answered : taskHost config op input before = some (answer, after)) :
    RunsStep op before.tables after.tables := by
  cases op with
  | insertRun id rank status =>
      rcases TaskState.attempt_eq answered with
          ⟨_, _, inserted, _, rfl⟩ | ⟨_, _, _, rfl⟩
      · obtain ⟨sameId, sameTask, sameStatus, nextId, members⟩ :=
          TaskTables.insertRun_eq inserted
        refine ⟨by rw [nextId]; exact Nat.le_succ _, fun run member => ?_⟩
        rcases members.mp member with old | rfl
        · exact .kept old rfl rfl rfl
        · subst sameTask sameStatus
          exact .inserted rfl sameId
      · exact .of_eq rfl
  | updateRun id dto =>
      cases answered
      refine ⟨Nat.le_refl _, fun run member => ?_⟩
      obtain ⟨old, oldMember, rfl⟩ := TaskTables.mem_updateRuns.mp member
      split
      · rename_i isRow
        cases beq_iff_eq.mp isRow
        exact .updated oldMember rfl rfl rfl rfl
      · exact .kept oldMember rfl rfl rfl
  | updateRunsByTaskAndStatus id status dto =>
      cases answered
      refine ⟨Nat.le_refl _, fun run member => ?_⟩
      obtain ⟨old, oldMember, rfl⟩ := TaskTables.mem_updateRuns.mp member
      split
      · rename_i isRow
        rw [Bool.and_eq_true, beq_iff_eq, beq_iff_eq] at isRow
        obtain ⟨rfl, rfl⟩ := isRow
        exact .swept oldMember rfl rfl rfl rfl
      · exact .kept oldMember rfl rfl rfl
  | deleteTaskById id =>
      cases answered
      refine ⟨Nat.le_refl _, fun run member => ?_⟩
      exact .kept (Table.mem_rows_deleteWhere.mp member).1 rfl rfl rfl
  | _ => exact .of_eq ((taskHost_keeps answered).taskRuns rfl)

/-- A rejected operation has not changed the tables. -/
theorem tables_of_rejected
    {reason : AppError}
    (answered :
      taskHost config op input before = some (.error reason, after)) :
    after.tables = before.tables := by
  cases op with
  | insertTask | insertRun =>
      rcases TaskState.attempt_eq answered with
          ⟨_, _, _, resolved, _⟩ | ⟨_, _, _, rfl⟩
      · cases resolved
      · rfl
  | deleteEnv | runEnv | getEnvChildren | dockerStop | dockerRemove
  | dockerWait | dockerInspectExitCode =>
      obtain ⟨docker, rfl⟩ := TaskState.command_eq answered
      rfl
  | buildEnv | readLog | readMetric | schedulerSchedule | lockResource =>
      simp only [taskHost] at answered
      split at answered <;> cases answered <;> rfl
  | _ => cases answered

/-- A task that is active was active, or has been activated, or is new. -/
theorem isActive_of_answered
    (answered : taskHost config op input before = some (answer, after))
    (active : after.tables.IsActive taskId) :
    before.tables.IsActive taskId ∨
      op = .setTaskActive taskId true ∨
        taskId = before.tables.tasks.nextId := by
  obtain ⟨task, member, rfl, isActive⟩ := active
  cases op with
  | insertTask data =>
      rcases TaskState.attempt_eq answered with
          ⟨_, _, inserted, _, rfl⟩ | ⟨_, _, _, rfl⟩
      · rcases (TaskTables.mem_insertTask inserted).mp member with old | rfl
        · exact .inl ⟨task, old, rfl, isActive⟩
        · exact .inr (.inr rfl)
      · exact .inl ⟨task, member, rfl, isActive⟩
  | updateTaskConfig id taskConfig =>
      cases answered
      obtain ⟨old, oldMember, rfl⟩ := TaskTables.mem_setConfig.mp member
      split at isActive
      · exact .inl ⟨old, oldMember, by split <;> rfl, isActive⟩
      · exact .inl ⟨old, oldMember, by split <;> rfl, isActive⟩
  | deleteTaskById id =>
      cases answered
      exact .inl ⟨task, (Table.mem_rows_deleteWhere.mp member).1, rfl, isActive⟩
  | setTaskActive id value =>
      cases answered
      obtain ⟨old, oldMember, rfl⟩ := TaskTables.mem_setActive.mp member
      split at isActive
      · rename_i isRow
        cases isActive
        rw [if_pos isRow]
        cases beq_iff_eq.mp isRow
        exact .inr (.inl rfl)
      · exact .inl ⟨old, oldMember, by split <;> rfl, isActive⟩
  | _ =>
      rw [(taskHost_keeps answered).tasks rfl] at member
      exact .inl ⟨task, member, rfl, isActive⟩

/-- A task that a statement finds active is active, and nothing changes. -/
theorem isActive_of_found
    {task : Task}
    (answered :
      taskHost config (.findTaskById taskId) input before =
        some (.ok (some task), after))
    (active : task.active = true) :
    before.tables.IsActive taskId ∧ after = before := by
  obtain ⟨member, sameId, rfl⟩ := TaskState.task_of_found answered
  exact ⟨⟨task, member, sameId, active⟩, rfl⟩

end Host

/-- How far the carrier of a run is. -/
inductive RunStage where
  /-- The executor has not looked at the task yet. -/
  | waiting
  /-- The executor has found the task active, and has not recorded the start. -/
  | launching
  | running
  | ended
  deriving Repr, DecidableEq

/-- The status a row may have in a stage. -/
def RunStage.Allows
    (tables : TaskTables)
    (taskId : Nat) :
    RunStage → TaskRunStatus → Prop
  | .waiting, status =>
      status = .pending ∨ (status = .stopped ∧ ¬ tables.IsActive taskId)
  | .launching, status => status = .pending
  | .running, status => status = .running
  | .ended, _ => True

/-- The row of a run that is carried in a stage, as long as there is one. -/
structure TaskTables.Backs
    (tables : TaskTables)
    (runHandle : TaskRunHandle)
    (stage : RunStage) :
    Prop where
  known : runHandle.runId < tables.taskRuns.nextId
  row :
    ∀ run ∈ tables.taskRuns.rows,
      run.id = runHandle.runId →
      run.taskId = runHandle.taskId ∧
        stage.Allows tables runHandle.taskId run.status

/-- The stage of an executor in a phase. -/
def TaskPhase.stage : TaskPhase → RunStage
  | .beginning => .waiting
  | .launching _ | .marking _ _ => .launching
  | .waiting _ _ | .finishing _ _ _ => .running
  | _ => .ended

/-- The run that a callback has registered and not enqueued yet. -/
def TaskPhase.handle? : TaskPhase → Option TaskRunHandle
  | .unlocking taskId (.registered taskRun) =>
      some { taskId, runId := taskRun.id, runRank := taskRun.rank }
  | .enqueueing runHandle => some runHandle
  | _ => none

/-- The run a call carries, and how far it is. -/
def TaskCall.carried : TaskCall → TaskPhase → Option (TaskRunHandle × RunStage)
  | .executor runHandle, phase => some (runHandle, phase.stage)
  | _, phase => phase.handle?.map fun runHandle => (runHandle, .waiting)

/-- An executor carries its run, a callback the one it has registered. -/
theorem TaskCall.carried_cases
    {call : TaskCall}
    {phase : TaskPhase}
    {runHandle : TaskRunHandle}
    {stage : RunStage}
    (carried : call.carried phase = some (runHandle, stage)) :
    (call = .executor runHandle ∧ stage = phase.stage) ∨
      ((∀ other, call ≠ .executor other) ∧
        phase.handle? = some runHandle ∧ stage = .waiting) := by
  cases call with
  | executor other =>
      cases carried
      exact .inl ⟨rfl, rfl⟩
  | _ =>
      obtain ⟨_, found, same⟩ := Option.map_eq_some_iff.mp carried
      cases same
      exact .inr ⟨nofun, found, rfl⟩

namespace TaskTables.Backs

variable {config : TaskServerConfig}
variable {op : TaskOp}
variable {input : TaskInput}
variable {before after : TaskState}
variable {answer : Except AppError op.Result}
variable {runHandle : TaskRunHandle}
variable {stage : RunStage}

/-- The task of a row is there, so that it is none that is yet to come. -/
theorem taskId_ne
    {tables : TaskTables}
    {run : TaskRun}
    (member : run ∈ tables.taskRuns.rows) :
    run.taskId ≠ tables.tasks.nextId := by
  obtain ⟨task, taskMember, same⟩ := tables.runsOfTasks run member
  rw [← same]
  exact Nat.ne_of_lt (tables.tasks.keysBelow task taskMember)

theorem owned
    {tables : TaskTables}
    (backs : tables.Backs runHandle stage) :
    tables.Backs runHandle .ended :=
  ⟨backs.known, fun run member isRun => ⟨(backs.row run member isRun).1, trivial⟩⟩

/-- The row of a carried run belongs to its task whatever is done to it. -/
theorem ended
    (backs : before.tables.Backs runHandle stage)
    (answered : taskHost config op input before = some (answer, after)) :
    after.tables.Backs runHandle .ended := by
  have runsStep := runsStep_of_answered answered
  refine ⟨Nat.lt_of_lt_of_le backs.known runsStep.nextId_le, ?_⟩
  intro run member isRun
  cases runsStep.origin run member with
  | kept oldMember sameId sameTask _ | updated oldMember sameId sameTask _ _
  | swept oldMember sameId sameTask _ _ =>
      have row := backs.row _ oldMember (sameId.trans isRun)
      exact ⟨sameTask.symm.trans row.1, trivial⟩
  | inserted _ fresh =>
      rw [isRun] at fresh
      exact absurd fresh (Nat.ne_of_lt backs.known)

/-- A carried run that is not itself updated keeps what its stage allows. -/
theorem kept
    (backs : before.tables.Backs runHandle stage)
    (answered : taskHost config op input before = some (answer, after))
    (notUpdated : ∀ dto, op ≠ .updateRun runHandle.runId dto)
    (inTime :
      ∀ status dto,
        op = .updateRunsByTaskAndStatus runHandle.taskId status dto →
        status = .pending ∧
          dto.status = .stopped ∧
          stage ≠ .launching ∧
          ¬ before.tables.IsActive runHandle.taskId)
    (notStopped :
      op = .setTaskActive runHandle.taskId true →
      stage = .waiting →
      ∀ run ∈ before.tables.taskRuns.rows,
        run.id = runHandle.runId →
        run.status ≠ .stopped) :
    after.tables.Backs runHandle stage := by
  have runsStep := runsStep_of_answered answered
  refine ⟨Nat.lt_of_lt_of_le backs.known runsStep.nextId_le, ?_⟩
  intro run member isRun
  cases runsStep.origin run member with
  | @kept old oldMember sameId sameTask sameStatus =>
      have wasRun := sameId.trans isRun
      obtain ⟨ownTask, allowed⟩ := backs.row old oldMember wasRun
      refine ⟨sameTask.symm.trans ownTask, ?_⟩
      rw [← sameStatus]
      cases stage with
      | waiting =>
          rcases allowed with pending | ⟨stopped, inactive⟩
          · exact .inl pending
          · refine .inr ⟨stopped, fun active => ?_⟩
            rcases isActive_of_answered answered active with
                wasActive | isOp | isNew
            · exact inactive wasActive
            · exact notStopped isOp rfl old oldMember wasRun stopped
            · exact taskId_ne oldMember (ownTask.trans isNew)
      | launching | running | ended => exact allowed
  | updated _ _ _ isOp _ =>
      rw [isRun] at isOp
      exact (notUpdated _ isOp).elim
  | @swept old dto oldMember sameId sameTask isOp status =>
      obtain ⟨ownTask, allowed⟩ :=
        backs.row old oldMember (sameId.trans isRun)
      have ownRun := sameTask.symm.trans ownTask
      rw [ownRun] at isOp
      obtain ⟨wasPending, isStopped, notLaunching, inactive⟩ :=
        inTime _ _ isOp
      refine ⟨ownRun, ?_⟩
      rw [status, isStopped]
      cases stage with
      | waiting =>
          refine .inr ⟨rfl, fun active => ?_⟩
          rcases isActive_of_answered answered active with
              wasActive | isOther | isNew
          · exact inactive wasActive
          · rw [isOp] at isOther
            cases isOther
          · exact taskId_ne oldMember (ownTask.trans isNew)
      | launching => exact absurd rfl notLaunching
      | running =>
          rw [wasPending] at allowed
          cases allowed
      | ended => trivial
  | inserted _ fresh =>
      rw [isRun] at fresh
      exact absurd fresh (Nat.ne_of_lt backs.known)

end TaskTables.Backs

namespace TaskView

/-- The call `pid` carries a run. -/
def Carries
    (view : TaskView)
    (pid : Nat)
    (runHandle : TaskRunHandle)
    (stage : RunStage) :
    Prop :=
  ∃ call phase,
    view.progress pid = some ⟨call, phase⟩ ∧
      call.carried phase = some (runHandle, stage)

/-- A run waits in the queue, or for it, or for its executor's first look. -/
def Waits (view : TaskView) (runHandle : TaskRunHandle) : Prop :=
  runHandle ∈ view.shared.queue ∨ ∃ pid, view.Carries pid runHandle .waiting

/--
The condition on a turn: the pending runs of a task are marked as stopped only
while the task is inactive and none of its executors is between the look at
the task and the start; and a task is activated only while none of its
stopped runs still waits.
-/
def StopsInTime (view : TaskView) : Turn TaskCall TaskInput → Prop
  | .invoke _ _ => True
  | .resume pid _ =>
      ∀ taskId,
        (view.InPhase pid (.stopping taskId 0) →
          ¬ view.shared.tables.IsActive taskId ∧
            ∀ other runHandle,
              view.Carries other runHandle .launching →
              runHandle.taskId ≠ taskId) ∧
        (view.InPhase pid (.activating taskId) →
          ∀ runHandle,
            view.Waits runHandle →
            runHandle.taskId = taskId →
            ∀ run ∈ view.shared.tables.taskRuns.rows,
              run.id = runHandle.runId →
              run.status ≠ .stopped)

/-- Every run has one carrier, and its row belongs to its task. -/
structure RunsOwned (view : TaskView) : Prop where
  known :
    ∀ pid runHandle stage,
      view.Carries pid runHandle stage →
      view.shared.tables.Backs runHandle .ended
  queued :
    ∀ runHandle ∈ view.shared.queue,
      view.shared.tables.Backs runHandle .ended
  unique :
    ∀ pid other runHandle otherHandle stage otherStage,
      view.Carries pid runHandle stage →
      view.Carries other otherHandle otherStage →
      runHandle.runId = otherHandle.runId →
      pid = other
  queueNodup : (view.shared.queue.map TaskRunHandle.runId).Nodup
  notQueued :
    ∀ pid runHandle stage,
      view.Carries pid runHandle stage →
      runHandle.runId ∉ view.shared.queue.map TaskRunHandle.runId

/-- Every run has one carrier, and the row its stage allows. -/
structure RunsCarried (view : TaskView) : Prop where
  backed :
    ∀ pid runHandle stage,
      view.Carries pid runHandle stage →
      view.shared.tables.Backs runHandle stage
  queued :
    ∀ runHandle ∈ view.shared.queue,
      view.shared.tables.Backs runHandle .waiting
  unique :
    ∀ pid other runHandle otherHandle stage otherStage,
      view.Carries pid runHandle stage →
      view.Carries other otherHandle otherStage →
      runHandle.runId = otherHandle.runId →
      pid = other
  queueNodup : (view.shared.queue.map TaskRunHandle.runId).Nodup
  notQueued :
    ∀ pid runHandle stage,
      view.Carries pid runHandle stage →
      runHandle.runId ∉ view.shared.queue.map TaskRunHandle.runId

theorem RunsCarried.owned
    {view : TaskView}
    (runsCarried : view.RunsCarried) :
    view.RunsOwned where
  known := fun pid runHandle stage carries =>
    (runsCarried.backed pid runHandle stage carries).owned
  queued := fun runHandle queued => (runsCarried.queued runHandle queued).owned
  unique := runsCarried.unique
  queueNodup := runsCarried.queueNodup
  notQueued := runsCarried.notQueued

end TaskView

namespace TaskPhase

variable {call : TaskCall}
variable {phase : TaskPhase}
variable {id : Nat}

theorem stopping_of_permits
    {status : TaskRunStatus}
    {dto : UpdateTaskRunDto}
    (permitted :
      phase.permits call (.updateRunsByTaskAndStatus id status dto)) :
    phase = .stopping id 0 ∧ status = .pending ∧ dto.status = .stopped := by
  cases phase <;> simp [permits] at permitted
  case beginning => cases call <;> simp [TaskCall.firstOp] at permitted
  case stopping =>
    obtain ⟨rfl, rfl, rfl, rfl⟩ := permitted
    exact ⟨rfl, rfl, rfl⟩

/-- New runs are inserted as pending. -/
theorem pending_of_permits
    {rank : RunRank}
    {status : TaskRunStatus}
    (permitted : phase.permits call (.insertRun id rank status)) :
    status = .pending := by
  cases phase <;> simp [permits] at permitted
  case beginning => cases call <;> simp [TaskCall.firstOp] at permitted
  case creating => exact permitted.2.2

theorem activating_of_permits
    (permitted : phase.permits call (.setTaskActive id true)) :
    phase = .activating id := by
  cases phase <;> simp [permits] at permitted
  case beginning => cases call <;> simp [TaskCall.firstOp] at permitted
  case activating => rw [permitted]

theorem enqueueing_of_permits
    {runHandle : TaskRunHandle}
    (permitted : phase.permits call (.enqueue runHandle)) :
    phase = .enqueueing runHandle ∧ ∃ taskId, call = .callback taskId := by
  cases phase <;> simp [permits] at permitted
  case beginning => cases call <;> simp [TaskCall.firstOp] at permitted
  case enqueueing => exact ⟨by rw [permitted.2], permitted.1⟩

/-- A single run is updated by its executor, at its start and at its end. -/
theorem updating_of_permits
    {dto : UpdateTaskRunDto}
    (permitted : phase.permits call (.updateRun id dto)) :
    ∃ runHandle,
      call = .executor runHandle ∧
        id = runHandle.runId ∧
        ((∃ container times,
            phase = .marking container times ∧ dto.status = .running) ∨
          (∃ container exitCode times,
            phase = .finishing container exitCode times ∧
              (dto.status = .succeed ∨ dto.status = .failed))) := by
  cases phase <;> simp [permits] at permitted
  case beginning => cases call <;> simp [TaskCall.firstOp] at permitted
  case marking container times =>
    obtain ⟨runHandle, rfl, rfl, rfl⟩ := permitted
    exact ⟨runHandle, rfl, rfl, .inl ⟨_, _, rfl, rfl⟩⟩
  case finishing container exitCode times =>
    obtain ⟨runHandle, rfl, rfl, rfl⟩ := permitted
    refine ⟨runHandle, rfl, rfl, .inr ⟨_, _, _, rfl, ?_⟩⟩
    split
    · exact .inl rfl
    · exact .inr rfl

theorem launching_of_permits
    {envId : String}
    {limitations : Option Limitations}
    (permitted : phase.permits call (.runEnv envId limitations)) :
    ∃ runHandle taskConfig,
      call = .executor runHandle ∧
        phase = .launching taskConfig ∧
        envId = buildTaskIdentifier runHandle.taskId := by
  cases phase <;> simp [permits] at permitted
  case beginning => cases call <;> simp [TaskCall.firstOp] at permitted
  case launching taskConfig =>
    obtain ⟨runHandle, rfl, rfl, _⟩ := permitted
    exact ⟨runHandle, taskConfig, rfl, rfl, rfl⟩

end TaskPhase

namespace TaskView

variable {config : TaskServerConfig}
variable {view : TaskView}
variable {pid other : Nat}
variable {call : TaskCall}
variable {phase next : TaskPhase}
variable {op : TaskOp}
variable {input : TaskInput}
variable {answer : Except AppError op.Result}
variable {shared : TaskState}
variable {runHandle : TaskRunHandle}
variable {stage : RunStage}
variable {mayFail : TaskOp → Bool}
variable {failingInput : TaskInput ⊕ AppError}

/-- After a move, the call that moved carries what its new phase says. -/
theorem Carries.of_place
    (carries :
      TaskView.Carries (view.place pid ⟨call, next⟩ shared) other runHandle
        stage) :
    (other = pid ∧ call.carried next = some (runHandle, stage)) ∨
      (other ≠ pid ∧ view.Carries other runHandle stage) := by
  obtain ⟨_, _, found, carried⟩ := carries
  rcases Protocol.View.place_cases found with ⟨same, shape⟩ | ⟨ne, earlier⟩
  · cases shape
    exact .inl ⟨same, carried⟩
  · exact .inr ⟨ne, _, _, earlier, carried⟩

/-- A run whose carrier does not move keeps the row its stage allows. -/
theorem backs_kept
    (inTime : view.StopsInTime (.resume pid input))
    (present : view.progress pid = some ⟨call, phase⟩)
    (permitted : phase.permits call op)
    (answered :
      taskHost config op input view.shared = some (answer, shared))
    (backs : view.shared.tables.Backs runHandle stage)
    (notOwn :
      ∀ own ownStage,
        view.Carries pid own ownStage → own.runId ≠ runHandle.runId)
    (waits : stage = .waiting → view.Waits runHandle)
    (launches :
      stage = .launching → ∃ other, view.Carries other runHandle .launching) :
    shared.tables.Backs runHandle stage := by
  refine backs.kept answered ?_ ?_ ?_
  · rintro dto rfl
    obtain ⟨own, rfl, same, _⟩ := TaskPhase.updating_of_permits permitted
    exact notOwn own phase.stage ⟨_, _, present, rfl⟩ same.symm
  · rintro status dto rfl
    obtain ⟨rfl, isPending, isStopped⟩ :=
      TaskPhase.stopping_of_permits permitted
    have stops := (inTime runHandle.taskId).1 ⟨call, present⟩
    refine ⟨isPending, isStopped, fun isLaunching => ?_, stops.1⟩
    obtain ⟨other, carries⟩ := launches isLaunching
    exact stops.2 other runHandle carries rfl
  · rintro rfl isWaiting
    have activates := TaskPhase.activating_of_permits permitted
    subst activates
    exact (inTime runHandle.taskId).2 ⟨call, present⟩ runHandle
      (waits isWaiting) rfl

/-- A registered run keeps its row while its callback goes on. -/
theorem backs_handle
    (permitted : phase.permits call op)
    (answered :
      taskHost config op input view.shared = some (answer, shared))
    (registered : phase.handle? = some runHandle)
    (backs : view.shared.tables.Backs runHandle .waiting) :
    shared.tables.Backs runHandle .waiting := by
  cases phase with
  | unlocking taskId registration =>
      cases permitted
      exact backs.kept answered nofun nofun nofun
  | enqueueing own =>
      obtain ⟨_, rfl⟩ := permitted
      exact backs.kept answered nofun nofun nofun
  | _ => cases registered

/-- The row of a run that has just been registered. -/
theorem backs_created
    {taskId : Nat}
    {rank : RunRank}
    {taskRun : TaskRun}
    (answered :
      taskHost config (.insertRun taskId rank .pending) input view.shared =
        some (.ok taskRun, shared)) :
    taskRun.id = view.shared.tables.taskRuns.nextId ∧
      shared.tables.Backs
        { taskId, runId := taskRun.id, runRank := taskRun.rank } .waiting := by
  rcases TaskState.attempt_eq answered with
      ⟨_, _, inserted, resolved, rfl⟩ | ⟨_, _, rejected, _⟩
  · cases resolved
    obtain ⟨newId, newTask, isPending, nextId, members⟩ :=
      TaskTables.insertRun_eq inserted
    refine ⟨newId, ?_, fun run member isRun => ?_⟩
    · rw [nextId, newId]
      exact Nat.lt_succ_self _
    · rcases members.mp member with old | rfl
      · have known : run.id < view.shared.tables.taskRuns.nextId :=
          view.shared.tables.taskRuns.keysBelow run old
        exact absurd (isRun.trans newId) (Nat.ne_of_lt known)
      · exact ⟨newTask, .inl isPending⟩
  · cases rejected

/-- The run carried after a move is the run carried before, or a new one. -/
theorem carried_of_advance
    (present : view.progress pid = some ⟨call, phase⟩)
    (permitted : phase.permits call op)
    (answered :
      (taskHost config).failing mayFail op failingInput view.shared =
        some (answer, shared))
    (carried :
      call.carried (phase.advance call op answer) = some (runHandle, stage)) :
    (∃ earlier, view.Carries pid runHandle earlier) ∨
      (runHandle.runId = view.shared.tables.taskRuns.nextId ∧
        shared.tables.Backs runHandle .waiting) := by
  rcases TaskCall.carried_cases carried with
      ⟨rfl, rfl⟩ | ⟨notExecutor, registered, rfl⟩
  · exact .inl ⟨phase.stage, _, _, present, rfl⟩
  · have earlier
        (found : phase.handle? = some runHandle) :
        ∃ earlier, view.Carries pid runHandle earlier := by
      refine ⟨.waiting, call, phase, present, ?_⟩
      cases call with
      | executor other => exact (notExecutor other rfl).elim
      | _ => exact Option.map_eq_some_iff.mpr ⟨_, found, rfl⟩
    have advances := TaskPhase.advances_advance answer permitted
    generalize phase.advance call op answer = next at advances registered
    cases advances with
    | failed fails =>
        cases fails with
        | same => exact .inl (earlier registered)
        | _ => cases registered
    | created =>
        cases registered
        rcases Host.of_failing answered with ⟨_, answered⟩ | ⟨_, ⟨_, rejected⟩, _⟩
        · exact .inr (backs_created answered)
        · cases rejected
    | unlocked => exact .inl (earlier registered)
    | present | dispatched => cases call <;> cases registered
    | _ => cases registered

/-- The run that a callback carries has a row that waits. -/
theorem RunsCarried.registered
    (runsCarried : view.RunsCarried)
    (present : view.progress pid = some ⟨call, phase⟩)
    (permitted : phase.permits call op)
    (answered :
      taskHost config op input view.shared = some (answer, shared))
    (notExecutor : ∀ other, call ≠ .executor other)
    (registered : (phase.advance call op answer).handle? = some runHandle) :
    shared.tables.Backs runHandle .waiting := by
  have carries
      (found : phase.handle? = some runHandle) :
      shared.tables.Backs runHandle .waiting := by
    refine backs_handle permitted answered found
      (runsCarried.backed pid runHandle .waiting ⟨call, phase, present, ?_⟩)
    cases call with
    | executor other => exact (notExecutor other rfl).elim
    | _ => exact Option.map_eq_some_iff.mpr ⟨_, found, rfl⟩
  have advances := TaskPhase.advances_advance answer permitted
  generalize phase.advance call op answer = next at advances registered
  cases advances with
  | failed fails =>
      cases fails with
      | same => exact carries registered
      | _ => cases registered
  | created =>
      cases registered
      exact (backs_created answered).2
  | unlocked => exact carries registered
  | present | dispatched => cases call <;> cases registered
  | _ => cases registered

/-- An executor that looks at its active task finds its run pending. -/
theorem backs_launching
    {task : Task}
    (answered :
      taskHost config (.findTaskById runHandle.taskId) input view.shared =
        some (.ok (some task), shared))
    (active : task.active = true)
    (backs : view.shared.tables.Backs runHandle .waiting) :
    shared.tables.Backs runHandle .launching := by
  obtain ⟨isActive, rfl⟩ := isActive_of_found answered active
  refine ⟨backs.known, fun run member isRun => ?_⟩
  obtain ⟨ownTask, isPending | ⟨_, inactive⟩⟩ := backs.row run member isRun
  · exact ⟨ownTask, isPending⟩
  · exact (inactive isActive).elim

/-- The recorded start of a run leaves its row running. -/
theorem backs_running
    {dto : UpdateTaskRunDto}
    {answer : Except AppError Unit}
    (answered :
      taskHost config (.updateRun runHandle.runId dto) input view.shared =
        some (answer, shared))
    (isRunning : dto.status = .running)
    (backs : view.shared.tables.Backs runHandle stage) :
    shared.tables.Backs runHandle .running := by
  cases answered
  refine ⟨backs.known, fun run member isRun => ?_⟩
  obtain ⟨old, oldMember, rfl⟩ := TaskTables.mem_updateRuns.mp member
  split at isRun
  · rename_i isRow
    rw [if_pos isRow]
    exact ⟨(backs.row old oldMember isRun).1, isRunning⟩
  · rename_i notRow
    exact (notRow (beq_iff_eq.mpr isRun)).elim

/-- The run of an executor that moves has the row its new stage allows. -/
theorem RunsCarried.executed
    (runsCarried : view.RunsCarried)
    (present : view.progress pid = some ⟨.executor runHandle, phase⟩)
    (permitted : phase.permits (.executor runHandle) op)
    (answered :
      taskHost config op input view.shared = some (answer, shared)) :
    shared.tables.Backs runHandle
      (phase.advance (.executor runHandle) op answer).stage := by
  have backs :=
    runsCarried.backed pid runHandle phase.stage ⟨_, _, present, rfl⟩
  have advances := TaskPhase.advances_advance answer permitted
  generalize phase.advance (.executor runHandle) op answer = next at advances
  cases advances with
  | failed fails =>
      cases fails with
      | same =>
          rw [tables_of_rejected answered]
          exact backs
      | _ => exact backs.ended answered
  | runs isCall active =>
      cases isCall
      exact backs_launching answered active backs
  | launched => exact backs.kept answered nofun nofun nofun
  | marked =>
      obtain ⟨own, isCall, rfl⟩ := permitted
      cases isCall
      exact backs_running answered rfl backs
  | terminated =>
      rcases permitted with rfl | rfl
      · exact backs.kept answered nofun nofun nofun
      · exact backs.kept answered nofun nofun nofun
  | _ => exact backs.ended answered

/-- The run carried after a move has the row its stage allows. -/
theorem RunsCarried.advance
    (runsCarried : view.RunsCarried)
    (present : view.progress pid = some ⟨call, phase⟩)
    (permitted : phase.permits call op)
    (answered :
      taskHost config op input view.shared = some (answer, shared))
    (carried :
      call.carried (phase.advance call op answer) = some (runHandle, stage)) :
    shared.tables.Backs runHandle stage := by
  rcases TaskCall.carried_cases carried with
      ⟨rfl, rfl⟩ | ⟨notExecutor, registered, rfl⟩
  · exact runsCarried.executed present permitted answered
  · exact runsCarried.registered present permitted answered notExecutor registered

/-- The queue only grows by the run that its callback has carried. -/
theorem queue_of_answered
    (present : view.progress pid = some ⟨call, phase⟩)
    (permitted : phase.permits call op)
    (answered :
      taskHost config op input view.shared = some (answer, shared)) :
    shared.queue = view.shared.queue ∨
      ∃ own,
        op = .enqueue own ∧
          shared.queue = view.shared.queue ++ [own] ∧
          view.Carries pid own .waiting ∧
          call.carried (phase.advance call op answer) = none := by
  by_cases enqueues : ∃ own, op = .enqueue own
  · obtain ⟨own, rfl⟩ := enqueues
    obtain ⟨rfl, taskId, rfl⟩ := TaskPhase.enqueueing_of_permits permitted
    cases answered
    exact .inr ⟨own, rfl, rfl, ⟨_, _, present, rfl⟩, rfl⟩
  · exact .inl ((taskHost_keeps answered).queue fun own isOp =>
      enqueues ⟨own, isOp⟩)

/-- So it does where operations may also fail. -/
theorem queue_of_failing
    (present : view.progress pid = some ⟨call, phase⟩)
    (permitted : phase.permits call op)
    (answered :
      (taskHost config).failing mayFail op failingInput view.shared =
        some (answer, shared)) :
    shared.queue = view.shared.queue ∨
      ∃ own,
        op = .enqueue own ∧
          shared.queue = view.shared.queue ++ [own] ∧
          view.Carries pid own .waiting ∧
          call.carried (phase.advance call op answer) = none := by
  rcases Host.of_failing answered with ⟨_, answered⟩ | ⟨_, _, rfl⟩
  · exact queue_of_answered present permitted answered
  · exact .inl rfl

/-- A row belongs to its task whatever is answered. -/
theorem owned_of_answered
    (answered :
      (taskHost config).failing mayFail op failingInput view.shared =
        some (answer, shared))
    (backs : view.shared.tables.Backs runHandle stage) :
    shared.tables.Backs runHandle .ended := by
  rcases Host.of_failing answered with ⟨_, answered⟩ | ⟨_, _, rfl⟩
  · exact backs.ended answered
  · exact backs.owned

/-- A new run is none that is known. -/
theorem ne_of_known
    {tables : TaskTables}
    {otherHandle : TaskRunHandle}
    (isNew : runHandle.runId = tables.taskRuns.nextId)
    (backs : tables.Backs otherHandle stage) :
    runHandle.runId ≠ otherHandle.runId := by
  intro same
  exact Nat.ne_of_lt backs.known (same.symm.trans isNew)

/-- Whatever is answered, every run still has one carrier. -/
theorem RunsOwned.answered
    (runsOwned : view.RunsOwned)
    (present : view.progress pid = some ⟨call, phase⟩)
    (permitted : phase.permits call op)
    (answered :
      (taskHost config).failing mayFail op failingInput view.shared =
        some (answer, shared)) :
    TaskView.RunsOwned
      (view.place pid ⟨call, phase.advance call op answer⟩ shared) := by
  have ownedBefore
      {runHandle : TaskRunHandle}
      {stage : RunStage}
      (carries : view.Carries pid runHandle stage) :=
    owned_of_answered answered (runsOwned.known pid runHandle stage carries)
  constructor
  · intro other runHandle stage carries
    rcases carries.of_place with ⟨rfl, own⟩ | ⟨different, earlier⟩
    · rcases carried_of_advance present permitted answered own with
          ⟨_, earlier⟩ | ⟨_, backs⟩
      · exact ownedBefore earlier
      · exact backs.owned
    · exact owned_of_answered answered (runsOwned.known other _ _ earlier)
  · intro runHandle queued
    rcases queue_of_failing present permitted answered with
        sameQueue | ⟨own, rfl, grown, carriesOwn, _⟩
    · exact owned_of_answered answered (runsOwned.queued _ (sameQueue ▸ queued))
    · change runHandle ∈ shared.queue at queued
      rw [grown] at queued
      rcases List.mem_append.mp queued with old | isOwn
      · exact owned_of_answered answered (runsOwned.queued _ old)
      · rw [List.mem_singleton.mp isOwn]
        exact ownedBefore carriesOwn
  · intro left right leftHandle rightHandle leftStage rightStage leftCarries
      rightCarries same
    have excludes
        {other : Nat}
        {otherHandle ownHandle : TaskRunHandle}
        {otherStage ownStage : RunStage}
        (carries : view.Carries other otherHandle otherStage)
        (own :
          call.carried (phase.advance call op answer) =
            some (ownHandle, ownStage))
        (same : ownHandle.runId = otherHandle.runId) :
        pid = other := by
      rcases carried_of_advance present permitted answered own with
          ⟨earlier, carriesOwn⟩ | ⟨isNew, _⟩
      · exact runsOwned.unique pid other _ _ _ _ carriesOwn carries same
      · exact absurd same (ne_of_known isNew (runsOwned.known _ _ _ carries))
    rcases leftCarries.of_place with ⟨rfl, ownLeft⟩ | ⟨_, leftEarlier⟩
    · rcases rightCarries.of_place with ⟨rfl, _⟩ | ⟨_, rightEarlier⟩
      · rfl
      · exact excludes rightEarlier ownLeft same
    · rcases rightCarries.of_place with ⟨rfl, ownRight⟩ | ⟨_, rightEarlier⟩
      · exact (excludes leftEarlier ownRight same.symm).symm
      · exact runsOwned.unique left right _ _ _ _ leftEarlier rightEarlier same
  · change (shared.queue.map TaskRunHandle.runId).Nodup
    rcases queue_of_failing present permitted answered with
        sameQueue | ⟨own, rfl, grown, carriesOwn, _⟩
    · rw [sameQueue]
      exact runsOwned.queueNodup
    · rw [grown, List.map_append]
      refine runsOwned.queueNodup.append (List.nodup_singleton _) ?_
      rw [List.map_singleton, List.disjoint_singleton]
      exact runsOwned.notQueued pid own .waiting carriesOwn
  · intro other runHandle stage carries
    change runHandle.runId ∉ shared.queue.map TaskRunHandle.runId
    rcases queue_of_failing present permitted answered with
        sameQueue | ⟨own, rfl, grown, carriesOwn, carriesNone⟩
    · rw [sameQueue]
      rcases carries.of_place with ⟨rfl, carried⟩ | ⟨_, earlier⟩
      · rcases carried_of_advance present permitted answered carried with
            ⟨stage, earlier⟩ | ⟨isNew, _⟩
        · exact runsOwned.notQueued other runHandle stage earlier
        · intro queued
          obtain ⟨otherHandle, member, same⟩ := List.mem_map.mp queued
          exact ne_of_known isNew (runsOwned.queued otherHandle member) same.symm
      · exact runsOwned.notQueued other runHandle stage earlier
    · rw [grown, List.map_append, List.mem_append, List.map_singleton,
        List.mem_singleton, not_or]
      rcases carries.of_place with ⟨_, carried⟩ | ⟨different, earlier⟩
      · rw [carriesNone] at carried
        cases carried
      · exact ⟨runsOwned.notQueued other runHandle stage earlier,
          fun same => different
            (runsOwned.unique other pid _ _ _ _ earlier carriesOwn same)⟩

/-- A move in which an operation is answered. -/
theorem RunsCarried.answered
    (runsCarried : view.RunsCarried)
    (inTime : view.StopsInTime (.resume pid input))
    (present : view.progress pid = some ⟨call, phase⟩)
    (permitted : phase.permits call op)
    (answered :
      taskHost config op input view.shared = some (answer, shared)) :
    TaskView.RunsCarried
      (view.place pid ⟨call, phase.advance call op answer⟩ shared) := by
  have resolves :
      (taskHost config).failing (fun _ => false) op (.inl input) view.shared =
        some (answer, shared) :=
    answered
  have owned := runsCarried.owned.answered present permitted resolves
  have otherBacks
      {other : Nat}
      {runHandle : TaskRunHandle}
      {stage : RunStage}
      (different : other ≠ pid)
      (carries : view.Carries other runHandle stage) :
      shared.tables.Backs runHandle stage := by
    refine backs_kept inTime present permitted answered
      (runsCarried.backed other runHandle stage carries) ?_ ?_ ?_
    · intro own ownStage carriesOwn same
      exact different
        (runsCarried.unique other pid _ _ _ _ carries carriesOwn same.symm)
    · rintro rfl
      exact .inr ⟨other, carries⟩
    · rintro rfl
      exact ⟨other, carries⟩
  have queuedBacks
      {runHandle : TaskRunHandle}
      (queued : runHandle ∈ view.shared.queue) :
      shared.tables.Backs runHandle .waiting := by
    refine backs_kept inTime present permitted answered
      (runsCarried.queued runHandle queued) ?_ (fun _ => .inl queued) nofun
    intro own ownStage carriesOwn same
    exact runsCarried.notQueued pid own ownStage carriesOwn
      (List.mem_map.mpr ⟨runHandle, queued, same.symm⟩)
  refine ⟨?_, ?_, owned.unique, owned.queueNodup, owned.notQueued⟩
  · intro other runHandle stage carries
    rcases carries.of_place with ⟨rfl, own⟩ | ⟨different, earlier⟩
    · exact runsCarried.advance present permitted answered own
    · exact otherBacks different earlier
  · intro runHandle queued
    rcases queue_of_answered present permitted answered with
        sameQueue | ⟨own, rfl, grown, carriesOwn, _⟩
    · exact queuedBacks (sameQueue ▸ queued)
    · change runHandle ∈ shared.queue at queued
      rw [grown] at queued
      rcases List.mem_append.mp queued with old | isOwn
      · exact queuedBacks old
      · rw [List.mem_singleton.mp isOwn]
        exact (runsCarried.backed pid own .waiting carriesOwn).kept answered
          nofun nofun nofun

/-- What the beginning of a call does to the queue. -/
theorem queue_of_begun
    (begun : beginTaskCall config call view.shared = some shared) :
    (shared.queue = view.shared.queue ∧
        call.carried (taskProtocol.start call) = none) ∨
      ∃ own,
        call = .executor own ∧ view.shared.queue = own :: shared.queue := by
  cases begins_of_begun begun with
  | executor next => exact .inr ⟨_, rfl, next⟩
  | build | exit => exact .inl ⟨rfl, rfl⟩
  | plain atOnce =>
      refine .inl ⟨rfl, ?_⟩
      cases call with
      | executor => cases atOnce
      | _ => rfl

/-- The run that a call carries when it has begun comes from the queue. -/
theorem Carries.of_begun
    (begun : beginTaskCall config call view.shared = some shared)
    (carries :
      TaskView.Carries (view.place pid ⟨call, taskProtocol.start call⟩ shared)
        other runHandle stage) :
    view.Carries other runHandle stage ∨
      (other = pid ∧ stage = .waiting ∧
        view.shared.queue = runHandle :: shared.queue) := by
  rcases carries.of_place with ⟨isPid, carried⟩ | ⟨_, earlier⟩
  · rcases queue_of_begun begun with ⟨_, carriesNone⟩ | ⟨own, rfl, shape⟩
    · rw [carriesNone] at carried
      cases carried
    · cases carried
      exact .inr ⟨isPid, rfl, shape⟩
  · exact .inl earlier

/-- What is left in the queue has been in it. -/
theorem mem_queue_of_begun
    (begun : beginTaskCall config call view.shared = some shared)
    (queued : runHandle ∈ shared.queue) :
    runHandle ∈ view.shared.queue := by
  rcases queue_of_begun begun with ⟨sameQueue, _⟩ | ⟨own, _, shape⟩
  · exact sameQueue ▸ queued
  · rw [shape]
    exact List.mem_cons_of_mem own queued

/-- An executor takes its run over from the queue; other calls take none. -/
theorem RunsOwned.begun
    (runsOwned : view.RunsOwned)
    (begun : beginTaskCall config call view.shared = some shared) :
    TaskView.RunsOwned
      (view.place pid ⟨call, taskProtocol.start call⟩ shared) := by
  have sameTables := (beginTaskCall_keeps begun).1
  have nodup := runsOwned.queueNodup
  have notQueued := runsOwned.notQueued
  have excludes
      {other : Nat}
      {runHandle own : TaskRunHandle}
      {stage : RunStage}
      (shape : view.shared.queue = own :: shared.queue)
      (carries : view.Carries other runHandle stage) :
      runHandle.runId ≠ own.runId := by
    intro same
    refine notQueued other runHandle stage carries ?_
    rw [same, shape]
    exact List.mem_cons_self
  constructor
  · intro other runHandle stage carries
    change shared.tables.Backs runHandle .ended
    rw [sameTables]
    rcases carries.of_begun begun with earlier | ⟨_, _, shape⟩
    · exact runsOwned.known other runHandle stage earlier
    · exact runsOwned.queued runHandle (by rw [shape]; exact List.mem_cons_self)
  · intro runHandle queued
    change shared.tables.Backs runHandle .ended
    rw [sameTables]
    exact runsOwned.queued runHandle (mem_queue_of_begun begun queued)
  · intro left right _ _ _ _ leftCarries rightCarries same
    rcases leftCarries.of_begun begun with leftEarlier | ⟨rfl, _, leftShape⟩
    · rcases rightCarries.of_begun begun with rightEarlier | ⟨rfl, _, rightShape⟩
      · exact runsOwned.unique left right _ _ _ _ leftEarlier rightEarlier same
      · exact (excludes rightShape leftEarlier same).elim
    · rcases rightCarries.of_begun begun with rightEarlier | ⟨rfl, _, _⟩
      · exact (excludes leftShape rightEarlier same.symm).elim
      · rfl
  · change (shared.queue.map TaskRunHandle.runId).Nodup
    rcases queue_of_begun begun with ⟨sameQueue, _⟩ | ⟨own, _, shape⟩
    · rw [sameQueue]
      exact nodup
    · rw [shape, List.map_cons] at nodup
      exact (List.nodup_cons.mp nodup).2
  · intro other runHandle stage carries queued
    obtain ⟨queuedHandle, member, same⟩ := List.mem_map.mp queued
    rcases carries.of_begun begun with earlier | ⟨_, _, shape⟩
    · exact notQueued other runHandle stage earlier
        (List.mem_map.mpr ⟨queuedHandle, mem_queue_of_begun begun member, same⟩)
    · rw [shape, List.map_cons] at nodup
      exact (List.nodup_cons.mp nodup).1 queued

/-- The beginning of a call changes no row. -/
theorem RunsCarried.begun
    (runsCarried : view.RunsCarried)
    (begun : beginTaskCall config call view.shared = some shared) :
    TaskView.RunsCarried
      (view.place pid ⟨call, taskProtocol.start call⟩ shared) := by
  have sameTables := (beginTaskCall_keeps begun).1
  have owned := @RunsOwned.begun _ _ pid _ _ runsCarried.owned begun
  refine ⟨?_, ?_, owned.unique, owned.queueNodup, owned.notQueued⟩
  · intro other runHandle stage carries
    change shared.tables.Backs runHandle stage
    rw [sameTables]
    rcases carries.of_begun begun with earlier | ⟨_, rfl, shape⟩
    · exact runsCarried.backed other runHandle stage earlier
    · exact runsCarried.queued runHandle (by rw [shape]; exact List.mem_cons_self)
  · intro runHandle queued
    change shared.tables.Backs runHandle .waiting
    rw [sameTables]
    exact runsCarried.queued runHandle (mem_queue_of_begun begun queued)

/-- Every move within the condition keeps the runs carried. -/
theorem RunsCarried.step
    {before after : TaskView}
    {turn : Turn TaskCall TaskInput}
    (runsCarried : before.RunsCarried)
    (inTime : before.StopsInTime turn)
    (moves :
      Protocol.Moves (taskServices config) taskProtocol before turn after) :
    after.RunsCarried := by
  cases moves with
  | invoke _ begun =>
      exact runsCarried.begun begun
  | resume present permitted answered =>
      exact runsCarried.answered inTime present permitted answered

theorem RunsCarried.initially :
    TaskView.RunsCarried (.initial taskProtocol .initial) := by
  have none
      (pid : Nat)
      (runHandle : TaskRunHandle)
      (stage : RunStage) :
      ¬ TaskView.Carries (.initial taskProtocol TaskState.initial) pid
        runHandle stage := by
    rintro ⟨_, _, present, _⟩
    cases present
  exact
    { backed := fun pid runHandle stage carries =>
        (none pid runHandle stage carries).elim
      queued := nofun
      unique := fun pid _ _ _ _ _ carries => (none pid _ _ carries).elim
      queueNodup := List.nodup_nil
      notQueued := fun pid runHandle stage carries =>
        (none pid runHandle stage carries).elim }

/-- Within the condition a turn moves the statuses on. -/
theorem RunsCarried.statusesMove
    {before after : TaskView}
    {turn : Turn TaskCall TaskInput}
    (runsCarried : before.RunsCarried)
    (moves :
      Protocol.Moves (taskServices config) taskProtocol before turn after) :
    TaskTables.StatusesMove before.shared.tables after.shared.tables := by
  cases moves with
  | @invoke _ _ shared _ begun =>
      intro run member
      change run ∈ shared.tables.taskRuns.rows at member
      rw [(beginTaskCall_keeps begun).1] at member
      exact .inl ⟨run, member, rfl, .refl _⟩
  | @resume pid call phase op input answer shared present permitted answered =>
      intro run member
      cases (runsStep_of_answered answered).origin run member with
      | kept oldMember sameId _ sameStatus =>
          exact .inl ⟨_, oldMember, sameId, sameStatus ▸ .refl _⟩
      | @updated old dto oldMember sameId _ isOp status =>
          subst isOp
          obtain ⟨own, rfl, isOwn, when⟩ :=
            TaskPhase.updating_of_permits permitted
          have backs :=
            runsCarried.backed pid own phase.stage ⟨_, _, present, rfl⟩
          have allowed := (backs.row old oldMember (sameId.trans isOwn)).2
          refine .inl ⟨old, oldMember, sameId, ?_⟩
          rw [status]
          rcases when with
              ⟨_, _, rfl, isRunning⟩ | ⟨_, _, _, rfl, succeed | failed⟩
          · rw [show old.status = .pending from allowed, isRunning]
            trivial
          · rw [show old.status = .running from allowed, succeed]
            trivial
          · rw [show old.status = .running from allowed, failed]
            trivial
      | @swept old dto oldMember sameId _ isOp status =>
          subst isOp
          obtain ⟨_, isPending, isStopped⟩ :=
            TaskPhase.stopping_of_permits permitted
          refine .inl ⟨old, oldMember, sameId, ?_⟩
          rw [isPending, status, isStopped]
          trivial
      | inserted isOp fresh =>
          subst isOp
          refine .inr ⟨fun old oldMember same => ?_, ?_⟩
          · have known : old.id < before.shared.tables.taskRuns.nextId :=
              before.shared.tables.taskRuns.keysBelow old oldMember
            exact Nat.ne_of_lt known (same.trans fresh)
          · exact TaskPhase.pending_of_permits permitted

end TaskView

end Prescott
