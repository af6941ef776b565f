import Prescott.UntouchedTasks

namespace Prescott

/-!
# The runs of a server that has started

After a crash the start-up enqueues an executor for every pending run of an
active task, while the executors that it has enqueued before are already at
work.  When it resolves, every run of an active task that is not over has one
executor, as long as the crash has caught no such run between its start and its
end, and no executor that stops its task after a failure marks other runs as
stopped.
-/

namespace StartUpPhase

/-- The task that is being registered, and those after it. -/
def tasks : StartUpPhase → List Task
  | .finding | .settled _ => []
  | .scanning task rest | .enqueueing task _ _ rest | .checkingEntry task rest
  | .scheduling task rest | .dispatching task rest => task :: rest

/-- The tasks whose pending runs have not been looked for. -/
def unscanned : StartUpPhase → List Task
  | .scanning task rest => task :: rest
  | phase => phase.tasks.tail

/-- The runs whose executors are enqueued next. -/
def listed : StartUpPhase → List TaskRunHandle
  | .enqueueing _ runHandle others _ => runHandle :: others
  | _ => []

/-- The start-up has still to look for the pending runs of the task. -/
def Awaits (phase : StartUpPhase) (taskId : Nat) : Prop :=
  phase = .finding ∨ ∃ task ∈ phase.unscanned, task.id = taskId

theorem awaits_iff
    {phase : StartUpPhase}
    {taskId : Nat}
    (notFinding : phase ≠ .finding) :
    phase.Awaits taskId ↔ ∃ task ∈ phase.unscanned, task.id = taskId :=
  or_iff_right notFinding

/-- The next answer is the last one, if it is not a rejection. -/
def isLast : StartUpPhase → Bool
  | .checkingEntry _ [] | .dispatching _ [] => true
  | _ => false

section

variable {task : Task}
variable {rest remaining : List Task}
variable {runHandles : List TaskRunHandle}
variable {taskId : Nat}

@[simp] theorem tasks_loop : (loop remaining).tasks = remaining := by
  cases remaining <;> rfl

@[simp] theorem unscanned_loop : (loop remaining).unscanned = remaining := by
  cases remaining <;> rfl

@[simp] theorem listed_loop : (loop remaining).listed = [] := by
  cases remaining <;> rfl

@[simp] theorem tasks_enqueues :
    (enqueues task rest runHandles).tasks = task :: rest := by
  cases runHandles <;> rfl

@[simp] theorem unscanned_enqueues :
    (enqueues task rest runHandles).unscanned = rest := by
  cases runHandles <;> rfl

@[simp] theorem listed_enqueues :
    (enqueues task rest runHandles).listed = runHandles := by
  cases runHandles <;> rfl

@[simp] theorem awaits_loop :
    (loop remaining).Awaits taskId ↔ ∃ task ∈ remaining, task.id = taskId := by
  have notFinding : loop remaining ≠ .finding := by
    cases remaining <;> rintro ⟨⟩
  rw [awaits_iff notFinding, unscanned_loop]

/-- A task is awaited after its scan only if it comes after it. -/
@[simp] theorem awaits_enqueues :
    (enqueues task rest runHandles).Awaits taskId ↔ ∃ later ∈ rest, later.id = taskId := by
  have notFinding : enqueues task rest runHandles ≠ .finding := by
    cases runHandles <;> rintro ⟨⟩
  rw [awaits_iff notFinding, unscanned_enqueues]

end

end StartUpPhase

/-- The status of a row while its executor is on a course; a task may be left inactive. -/
def RunCourse.Fits (tables : TaskTables) (taskId : Nat) : RunCourse → TaskRunStatus → Prop
  | .unstarted, status => status = .pending
  | .running, status => status = .running
  | .abandoned, _ => True
  | .concluded, status => status.isFinal = true ∨ ¬tables.IsActive taskId

/-- The executor has deactivated the task that it stops. -/
def TaskPhase.hasDeactivated : TaskPhase → Bool
  | .unscheduling _ | .listing _ | .stopping _ _ => true
  | _ => false

/-- What an executor in a phase knows of the row of its run, as long as there is one. -/
def TaskPhase.Fits
    (tables : TaskTables)
    (runHandle : TaskRunHandle)
    (phase : TaskPhase) :
    Prop :=
  ∀ run ∈ tables.taskRuns.rows,
    run.id = runHandle.runId →
    phase.course.Fits tables runHandle.taskId run.status ∧
      (phase.hasDeactivated = true → ¬tables.IsActive runHandle.taskId)

/-- An operation changes the status of no row of a run. -/
structure TaskTables.LeavesRun (tables : TaskTables) (op : TaskOp) (runId : Nat) :
    Prop where
  updated : ∀ dto, op ≠ .updateRun runId dto
  swept :
    ∀ run ∈ tables.taskRuns.rows,
      run.id = runId →
      ∀ dto, op ≠ .updateRunsByTaskAndStatus run.taskId run.status dto

namespace TaskTables.Backs

variable {config : TaskServerConfig}
variable {op : TaskOp}
variable {input : TaskInput}
variable {before after : TaskState}
variable {answer : Except AppError op.Result}
variable {runHandle : TaskRunHandle}
variable {stage : RunStage}
variable {run : TaskRun}

/-- The row of a known run has been there, for the same task. -/
theorem earlier
    (backs : before.tables.Backs runHandle stage)
    (answered : taskHost config op input before = some (answer, after))
    (member : run ∈ after.tables.taskRuns.rows)
    (isRun : run.id = runHandle.runId) :
    ∃ old ∈ before.tables.taskRuns.rows,
      old.id = runHandle.runId ∧
        old.taskId = runHandle.taskId ∧
          (before.tables.LeavesRun op runHandle.runId → old.status = run.status) := by
  cases (runsStep_of_answered answered).origin run member with
  | kept oldMember sameId _ sameStatus =>
      exact ⟨_, oldMember, sameId.trans isRun,
        (backs.row _ oldMember (sameId.trans isRun)).1, fun _ => sameStatus⟩
  | updated oldMember sameId _ isOp _ =>
      refine ⟨_, oldMember, sameId.trans isRun,
        (backs.row _ oldMember (sameId.trans isRun)).1, fun leaves => ?_⟩
      rw [isRun] at isOp
      exact (leaves.updated _ isOp).elim
  | swept oldMember sameId sameTask isOp _ =>
      refine ⟨_, oldMember, sameId.trans isRun,
        (backs.row _ oldMember (sameId.trans isRun)).1, fun leaves => ?_⟩
      rw [← sameTask] at isOp
      exact (leaves.swept _ oldMember (sameId.trans isRun) _ isOp).elim
  | inserted _ fresh =>
      rw [isRun] at fresh
      exact absurd fresh (Nat.ne_of_lt backs.known)

/-- The task of a known run is active only where it was, unless it is activated. -/
theorem inactive
    (backs : before.tables.Backs runHandle stage)
    (answered : taskHost config op input before = some (answer, after))
    (notActivated : ∀ id, op ≠ .setTaskActive id true)
    (member : run ∈ after.tables.taskRuns.rows)
    (isRun : run.id = runHandle.runId)
    (wasInactive : ¬before.tables.IsActive runHandle.taskId) :
    ¬after.tables.IsActive runHandle.taskId := by
  obtain ⟨old, oldMember, _, ofTask, _⟩ := backs.earlier answered member isRun
  intro active
  rcases isActive_of_answered answered active with wasActive | isOp | isNew
  · exact wasInactive wasActive
  · exact notActivated _ isOp
  · exact taskId_ne oldMember (ofTask.trans isNew)

/-- A run that is left alone fits its course as before. -/
theorem fits
    {course : RunCourse}
    (backs : before.tables.Backs runHandle stage)
    (answered : taskHost config op input before = some (answer, after))
    (notActivated : ∀ id, op ≠ .setTaskActive id true)
    (leaves : course ≠ .abandoned → before.tables.LeavesRun op runHandle.runId)
    (fitted :
      ∀ old ∈ before.tables.taskRuns.rows,
        old.id = runHandle.runId →
        course.Fits before.tables runHandle.taskId old.status)
    (member : run ∈ after.tables.taskRuns.rows)
    (isRun : run.id = runHandle.runId) :
    course.Fits after.tables runHandle.taskId run.status := by
  obtain ⟨old, oldMember, isOld, _, sameStatus⟩ := backs.earlier answered member isRun
  have fitsOld := fitted old oldMember isOld
  cases course with
  | abandoned => trivial
  | unstarted | running =>
      rw [sameStatus (leaves nofun)] at fitsOld
      exact fitsOld
  | concluded =>
      rw [sameStatus (leaves nofun)] at fitsOld
      exact fitsOld.imp_right (backs.inactive answered notActivated member isRun)

end TaskTables.Backs

namespace TaskView

/--
The executors of a run: in the queue by their index, or in progress by their
call, up to the end of the run or to the failure after which it is over.
-/
def HasExecutor (view : TaskView) (run : TaskRun) : Nat ⊕ Nat → Prop
  | .inl index =>
      ∃ runHandle, view.shared.queue[index]? = some runHandle ∧ runHandle.runId = run.id
  | .inr pid =>
      ∃ runHandle phase,
        view.progress pid = some ⟨.executor runHandle, phase⟩ ∧
          runHandle.runId = run.id ∧
            (phase.course = .unstarted ∨ phase.course = .running ∨
              phase.course = .abandoned ∧ run.status.isFinal = false)

/--
Every run of an active task that is not over has one executor, and a run that
is over has none.
-/
def Recovered (view : TaskView) : Prop :=
  ∀ run ∈ view.shared.tables.taskRuns.rows,
    (view.shared.tables.IsActive run.taskId →
      run.status.isFinal = false →
      ∃! executor, view.HasExecutor run executor) ∧
    (run.status.isFinal = true → ∀ executor, ¬view.HasExecutor run executor)

/-- Where a run is as long as it is not over and its task is active. -/
inductive IsKept (view : TaskView) (phase : StartUpPhase) (run : TaskRun) : Prop where
  | waits
      (runHandle : TaskRunHandle)
      (isRun : runHandle.runId = run.id)
      (unexecuted : view.Unexecuted runHandle)
  | executes
      (pid : Nat)
      (runHandle : TaskRunHandle)
      (callPhase : TaskPhase)
      (isRun : runHandle.runId = run.id)
      (present : view.progress pid = some ⟨.executor runHandle, callPhase⟩)
  | listed
      (runHandle : TaskRunHandle)
      (isRun : runHandle.runId = run.id)
      (isListed : runHandle ∈ phase.listed)
  | awaited
      (isPending : run.status = .pending)
      (awaits : phase.Awaits run.taskId)

/-- The start-up is on its way to provide for all runs. -/
structure Recovering (phase : StartUpPhase) (view : TaskView) : Prop where
  owned : view.RunsOwned
  serves :
    ∀ pid call callPhase,
      view.progress pid = some ⟨call, callPhase⟩ → call.Serves callPhase
  waiting :
    ∀ runHandle,
      view.Unexecuted runHandle →
      ∀ run ∈ view.shared.tables.taskRuns.rows,
        run.id = runHandle.runId → run.status = .pending
  executed :
    ∀ pid runHandle callPhase,
      view.progress pid = some ⟨.executor runHandle, callPhase⟩ →
      callPhase.Fits view.shared.tables runHandle
  listed :
    ∀ runHandle ∈ phase.listed, view.shared.tables.Backs runHandle .launching
  listedNodup : (phase.listed.map TaskRunHandle.runId).Nodup
  notQueued :
    ∀ runHandle ∈ phase.listed,
      runHandle.runId ∉ view.shared.queue.map TaskRunHandle.runId
  notCarried :
    ∀ runHandle ∈ phase.listed,
      ∀ pid other stage,
        view.Carries pid other stage → other.runId ≠ runHandle.runId
  /-- The runs that are enqueued next are those of the first task. -/
  ofTask :
    ∀ runHandle ∈ phase.listed,
      ∃ task rest, phase.tasks = task :: rest ∧ runHandle.taskId = task.id
  nodup : (phase.tasks.map Task.id).Nodup
  untouched : ∀ taskId, phase.Awaits taskId → view.Untouched taskId
  kept :
    ∀ run ∈ view.shared.tables.taskRuns.rows,
      view.shared.tables.IsActive run.taskId →
      run.status.isFinal = false →
      view.IsKept phase run

end TaskView

/--
The condition on a turn: an executor that stops its task after a failure finds
no other run of the task pending when it marks the pending runs as stopped; and
no callback is about to enqueue a run when the start-up gets its last answer.
-/
def StartUp.SparesRuns (before : StartUp) : StartUpTurn → Prop
  | .calls (.invoke _ _) => True
  | .calls (.resume pid _) =>
      ∀ runHandle,
        before.calls.view.progress pid =
            some ⟨.executor runHandle, .stopping runHandle.taskId 0⟩ →
        ∀ run ∈ before.calls.shared.tables.taskRuns.rows,
          run.taskId = runHandle.taskId →
          run.status = .pending →
          run.id = runHandle.runId
  | .registers _ =>
      before.registration.phase.isLast = true →
      ∀ pid taskId phase,
        before.calls.view.progress pid = some ⟨.callback taskId, phase⟩ →
        phase.handle? = none

namespace TaskView

variable {config : TaskServerConfig}
variable {view : TaskView}
variable {startUp : StartUpPhase}
variable {pid : Nat}
variable {call : TaskCall}
variable {phase : TaskPhase}
variable {op : TaskOp}
variable {input : TaskInput}
variable {answer : Except AppError op.Result}
variable {shared : TaskState}
variable {runHandle : TaskRunHandle}

/-- The condition of a turn in terms of a sweep. -/
def SweepsOwn (view : TaskView) (call : TaskCall) (op : TaskOp) : Prop :=
  ∀ id status dto,
    op = .updateRunsByTaskAndStatus id status dto →
    ∃ own,
      call = .executor own ∧ id = own.taskId ∧ status = .pending ∧
        ∀ run ∈ view.shared.tables.taskRuns.rows,
          run.taskId = id → run.status = .pending → run.id = own.runId

/-- Only the executor that stops its task sweeps, and it sweeps its own run. -/
theorem sweepsOwn_of_sparesRuns
    (serves : call.Serves phase)
    (spares :
      ∀ own,
        call = .executor own →
        phase = .stopping own.taskId 0 →
        ∀ run ∈ view.shared.tables.taskRuns.rows,
          run.taskId = own.taskId → run.status = .pending → run.id = own.runId)
    (permitted : phase.permits call op) :
    view.SweepsOwn call op := by
  rintro id status dto rfl
  obtain ⟨rfl, isPending, _⟩ := TaskPhase.stopping_of_permits permitted
  cases call with
  | executor own =>
      have isOwn : id = own.taskId := serves.2
      subst isOwn
      exact ⟨own, rfl, rfl, isPending, spares own rfl rfl⟩
  | _ => exact serves.elim

/-- No other run than that of the call that moves is updated or swept. -/
theorem leavesRun_of_notOwn
    (sweepsOwn : view.SweepsOwn call op)
    (permitted : phase.permits call op)
    (notOwn : ∀ own, call = .executor own → own.runId ≠ runHandle.runId) :
    view.shared.tables.LeavesRun op runHandle.runId := by
  constructor
  · rintro dto rfl
    obtain ⟨own, isCall, same, _⟩ := TaskPhase.updating_of_permits permitted
    exact notOwn own isCall same.symm
  · rintro run member isRun dto isOp
    obtain ⟨own, isCall, isTask, isPending, isOwn⟩ := sweepsOwn _ _ _ isOp
    exact notOwn own isCall ((isOwn run member rfl isPending).symm.trans isRun)

/-- After an executor has deactivated the task that it stops, the task is inactive. -/
theorem inactive_of_hasDeactivated
    (serves : TaskCall.Serves (.executor runHandle) phase)
    (fits : phase.Fits view.shared.tables runHandle)
    (backs : view.shared.tables.Backs runHandle .ended)
    (notActivated : ∀ id, op ≠ .setTaskActive id true)
    (permitted : phase.permits (.executor runHandle) op)
    (answered : taskHost config op input view.shared = some (answer, shared))
    {run : TaskRun}
    (member : run ∈ shared.tables.taskRuns.rows)
    (isRun : run.id = runHandle.runId)
    (deactivated :
      (phase.advance (.executor runHandle) op answer).hasDeactivated = true) :
    ¬shared.tables.IsActive runHandle.taskId := by
  obtain ⟨old, oldMember, isOld, _⟩ := backs.earlier answered member isRun
  have kept
      (before : phase.hasDeactivated = true) :
      ¬shared.tables.IsActive runHandle.taskId :=
    backs.inactive answered notActivated member isRun ((fits old oldMember isOld).2 before)
  have advances := TaskPhase.advances_advance answer permitted
  generalize phase.advance (.executor runHandle) op answer = next at advances deactivated
  cases advances with
  | failed fails =>
      cases fails with
      | same => exact kept deactivated
      | stopping isPhase => exact kept (by rw [isPhase]; rfl)
      | _ => cases deactivated
  | deactivated =>
      cases permitted
      cases answered
      obtain rfl : _ = runHandle.taskId := serves.2
      rintro ⟨task, taskMember, isTask, active⟩
      obtain ⟨earlier, _, rfl⟩ := TaskTables.mem_setActive.mp taskMember
      split at active
      · cases active
      · rename_i notTask
        rw [if_neg notTask] at isTask
        exact notTask (beq_iff_eq.mpr isTask)
  | _ => first | exact kept rfl | cases deactivated

/-- The executor that moves still fits the row of its run. -/
theorem fits_moved
    (serves : TaskCall.Serves (.executor runHandle) phase)
    (fits : phase.Fits view.shared.tables runHandle)
    (backs : view.shared.tables.Backs runHandle .ended)
    (notActivated : ∀ id, op ≠ .setTaskActive id true)
    (permitted : phase.permits (.executor runHandle) op)
    (answered : taskHost config op input view.shared = some (answer, shared)) :
    (phase.advance (.executor runHandle) op answer).Fits shared.tables runHandle := by
  have resolves :
      (taskHost config).failing TaskOp.mayReject op (.inl input) view.shared =
        some (answer, shared) :=
    answered
  intro run member isRun
  refine ⟨?_, inactive_of_hasDeactivated serves fits backs notActivated permitted answered
    member isRun⟩
  have moves := executorMoves_advance answer permitted
  generalize phase.advance (.executor runHandle) op answer = next at moves
  cases moves with
  | stays notUpdated same =>
      rw [same]
      refine backs.fits answered notActivated (fun notAbandoned => ⟨notUpdated, ?_⟩)
        (fun old oldMember isOld => (fits old oldMember isOld).1) member isRun
      rintro old _ _ dto rfl
      obtain ⟨rfl, _⟩ := TaskPhase.stopping_of_permits permitted
      exact notAbandoned rfl
  | abandons | loses => trivial
  | skips looks inactive =>
      obtain ⟨notActive, rfl⟩ := not_isActive_of_skipped resolves inactive
      exact .inr notActive
  | starts =>
      have isRunning : shared.tables.OnCourse runHandle.runId .running :=
        onCourse_of_updated resolves rfl
      exact isRunning run member isRun
  | finishes isFinal =>
      have isConcluded : shared.tables.OnCourse runHandle.runId .concluded :=
        onCourse_of_updated resolves isFinal
      exact .inl (isConcluded run member isRun)
  | givesUp stops =>
      have sameTables := tables_of_rejection resolves
      rw [sameTables] at member ⊢
      rcases stops with rfl | ⟨_, rfl | rfl⟩
      · obtain ⟨_, _, rfl⟩ := permitted
        cases answered
      · exact .inr ((fits run member isRun).2 rfl)
      · exact .inr ((fits run member isRun).2 rfl)
  | sweeps =>
      obtain ⟨old, oldMember, isOld, _⟩ := backs.earlier answered member isRun
      exact .inr (backs.inactive answered notActivated member isRun
        ((fits old oldMember isOld).2 rfl))
  | unwritten isWrite => exact (not_rejected_of_write resolves isWrite).elim

end TaskView

end Prescott
