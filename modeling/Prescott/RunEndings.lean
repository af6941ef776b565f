import Prescott.RunRecovery
import Prescott.RunRegistration
import Prescott.RunStatuses

namespace Prescott

/-!
# The end of a run

When the executor of a run has settled, the row of the run should be over.
What its status may be follows from the phase of the executor, as long as no
failure and no other call drops the run: that is what the condition on the
turns rules out.
-/

namespace TaskOp

/-- Every awaited call may reject but the writes of the database. -/
def mayReject : TaskOp → Bool
  | .insertTask _ | .updateTaskConfig _ _ | .deleteTaskById _ | .setTaskActive _ _
  | .insertRun _ _ _ | .updateRun _ _ | .updateRunsByTaskAndStatus _ _ _
  | .dispatchBuild _ _ | .leaveQueue => false
  | _ => true

end TaskOp

/-- The task services as they are when these calls may reject. -/
def rejectingTaskServices (config : TaskServerConfig) :
    Service taskSignature AppError TaskState (TaskInput ⊕ AppError) TaskCall
      TaskReply :=
  (taskServices config).failing TaskOp.mayReject

/-- The answer to a call is a rejection. -/
def TaskOp.Rejects
    (op : TaskOp)
    (config : TaskServerConfig)
    (input : TaskInput ⊕ AppError)
    (state : TaskState) :
    Prop :=
  ∃ reason after,
    (taskHost config).failing TaskOp.mayReject op input state =
      some (.error reason, after)

/-- What becomes of a run in the hands of its executor. -/
inductive RunCourse where
  /-- The start of the run has not been recorded. -/
  | unstarted
  | running
  /-- The executor has failed and stops the task. -/
  | abandoned
  | concluded
  deriving Repr, DecidableEq

/-- The course of a run whose executor is in a phase. -/
def TaskPhase.course : TaskPhase → RunCourse
  | .beginning | .launching _ | .marking _ _ => .unstarted
  | .waiting _ _ | .finishing _ _ _ => .running
  | .failing | .deactivating _ | .unscheduling _ | .listing _ | .stopping _ _ =>
      .abandoned
  | _ => .concluded

/-- The status a row may have on a course. -/
def RunCourse.Allows : RunCourse → TaskRunStatus → Prop
  | .unstarted, status => status = .pending ∨ status = .stopped
  | .running, status => status = .running
  | .abandoned, status => status ≠ .running
  | .concluded, status => status.isFinal = true

/-- A status stays, or a stop sweeps the pending run. -/
def TaskRunStatus.Swept (before after : TaskRunStatus) : Prop :=
  after = before ∨ (before = .pending ∧ after = .stopped)

namespace RunCourse.Allows

variable {course : RunCourse}
variable {before after : TaskRunStatus}

/-- No course minds a sweep. -/
theorem swept
    (allowed : course.Allows before)
    (isSwept : before.Swept after) :
    course.Allows after := by
  rcases isSwept with rfl | ⟨rfl, rfl⟩
  · exact allowed
  · cases course with
    | unstarted => exact .inr rfl
    | running => cases allowed
    | abandoned => nofun
    | concluded => cases allowed

theorem abandoned_of_unstarted
    (allowed : RunCourse.unstarted.Allows before) :
    RunCourse.abandoned.Allows before := by
  rcases allowed with rfl | rfl <;> nofun

theorem abandoned_of_concluded
    (allowed : RunCourse.concluded.Allows before) :
    RunCourse.abandoned.Allows before := by
  rintro rfl
  cases allowed

/-- A run that is not running is over unless it is pending. -/
theorem over_of_abandoned
    (allowed : RunCourse.abandoned.Allows before)
    (notPending : before ≠ .pending) :
    RunCourse.concluded.Allows before := by
  cases before with
  | running => exact absurd rfl allowed
  | pending => exact absurd rfl notPending
  | failed | succeed | stopped => rfl

theorem over_of_unstarted
    (allowed : RunCourse.unstarted.Allows before)
    (notPending : before ≠ .pending) :
    RunCourse.concluded.Allows before :=
  over_of_abandoned (abandoned_of_unstarted allowed) notPending

end RunCourse.Allows

/-- Is a call a write to the row of one run? -/
def TaskOp.updatesRun : TaskOp → Bool
  | .updateRun _ _ => true
  | _ => false

theorem TaskOp.ne_updateRun
    {op : TaskOp}
    {runId : Nat}
    (isOther : op.updatesRun = false)
    (dto : UpdateTaskRunDto) :
    op ≠ .updateRun runId dto := by
  rintro rfl
  cases isOther

/-- The row of a run has a status of a course, as long as there is one. -/
def TaskTables.OnCourse
    (tables : TaskTables)
    (runId : Nat)
    (course : RunCourse) :
    Prop :=
  ∀ run ∈ tables.taskRuns.rows, run.id = runId → course.Allows run.status

/-- The phases of an executor as far as its run is concerned. -/
inductive ExecutorMoves (runHandle : TaskRunHandle) :
    TaskPhase → (op : TaskOp) → Except AppError op.Result → TaskPhase →
      Prop where
  | stays
      {phase next : TaskPhase}
      {op : TaskOp}
      {answer : Except AppError op.Result}
      (notUpdated : ∀ dto, op ≠ .updateRun runHandle.runId dto)
      (same : next.course = phase.course) :
      ExecutorMoves runHandle phase op answer next
  /-- A failure before the start or after the end. -/
  | abandons
      {phase : TaskPhase}
      {op : TaskOp}
      {reason : AppError}
      (notUpdated : ∀ dto, op ≠ .updateRun runHandle.runId dto)
      (course : phase.course = .unstarted ∨ phase.course = .concluded) :
      ExecutorMoves runHandle phase op (.error reason) .failing
  /-- The look at the task does not find it active. -/
  | skips
      {phase : TaskPhase}
      {found : Option Task}
      (looks : phase = .beginning ∨ phase = .failing)
      (inactive : ∀ task, found = some task → task.active = false) :
      ExecutorMoves runHandle phase (.findTaskById runHandle.taskId) (.ok found)
        .leaving
  | starts
      {container : String}
      {times : Option Rat} :
      ExecutorMoves runHandle (.marking container times)
        (.updateRun runHandle.runId { status := .running, handleId := some container })
        (.ok ()) (.waiting container times)
  /-- Neither command has told the exit code. -/
  | loses
      {container : String}
      {times : Option Rat}
      {reason : AppError} :
      ExecutorMoves runHandle (.waiting container times)
        (.dockerInspectExitCode container) (.error reason) .failing
  | finishes
      {container : String}
      {exitCode : Int}
      {times : Option Rat}
      {dto : UpdateTaskRunDto}
      (isFinal : dto.status.isFinal = true) :
      ExecutorMoves runHandle (.finishing container exitCode times)
        (.updateRun runHandle.runId dto) (.ok ()) (.removing container times)
  /-- The stop of the task fails before the sweep. -/
  | givesUp
      {phase : TaskPhase}
      {op : TaskOp}
      {reason : AppError}
      (stops :
        phase = .failing ∨ ∃ taskId, phase = .unscheduling taskId ∨ phase = .listing taskId) :
      ExecutorMoves runHandle phase op (.error reason) .leaving
  | sweeps
      {taskId count : Nat} :
      ExecutorMoves runHandle (.stopping taskId 0)
        (.updateRunsByTaskAndStatus taskId .pending { status := .stopped })
        (.ok count) .leaving
  /-- A write that fails, which none does. -/
  | unwritten
      {phase next : TaskPhase}
      {op : TaskOp}
      {reason : AppError}
      (isWrite :
        (∃ id dto, op = .updateRun id dto) ∨
          (∃ id value, op = .setTaskActive id value) ∨
          ∃ id status dto, op = .updateRunsByTaskAndStatus id status dto) :
      ExecutorMoves runHandle phase op (.error reason) next

/-- The phases an executor comes to. -/
def TaskPhase.executes : TaskPhase → Bool
  | .beginning | .launching _ | .marking _ _ | .waiting _ _ | .finishing _ _ _
  | .removing _ _ | .autoUnscheduling | .autoStopping | .failing | .deactivating _
  | .unscheduling _ | .listing _ | .stopping _ _ | .settled _ | .leaving => true
  | _ => false

/-- In the phases of the other calls nothing becomes of a run. -/
theorem executorMoves_foreign
    {runHandle : TaskRunHandle}
    {phase : TaskPhase}
    {op : TaskOp}
    (answer : Except AppError op.Result)
    (foreign : phase.executes = false)
    (permitted : phase.permits (.executor runHandle) op) :
    ExecutorMoves runHandle phase op answer
      (phase.advance (.executor runHandle) op answer) := by
  cases phase with
  | inserting =>
      obtain ⟨_, _, _, isCall, _⟩ := permitted
      cases isCall
  | enqueueing own =>
      obtain ⟨⟨_, isCall⟩, _⟩ := permitted
      cases isCall
  | scheduling | dispatching | activating | storing | unregistering | deletingRow
  | starting | disabling | creating =>
      cases permitted
      cases answer <;> exact .stays (TaskOp.ne_updateRun rfl) rfl
  | checkingEntry taskId taskConfig =>
      cases permitted
      rcases answer with _ | found
      · exact .stays (TaskOp.ne_updateRun rfl) rfl
      · cases found <;> exact .stays (TaskOp.ne_updateRun rfl) rfl
  | clearing taskId taskConfig =>
      rcases permitted with rfl | ⟨_, rfl⟩ | rfl
      · cases answer <;> exact .stays (TaskOp.ne_updateRun rfl) rfl
      · exact .stays (TaskOp.ne_updateRun rfl) rfl
      · cases answer <;> cases taskConfig <;> exact .stays (TaskOp.ne_updateRun rfl) rfl
  | flushing taskId =>
      rcases permitted with rfl | rfl <;> cases answer <;>
          exact .stays (TaskOp.ne_updateRun rfl) rfl
  | locking taskId times retriesLeft =>
      rcases permitted with rfl | rfl
      · rcases answer with _ | locked
        · exact .stays (TaskOp.ne_updateRun rfl) rfl
        · cases locked <;> cases times <;>
            exact .stays (TaskOp.ne_updateRun rfl) rfl
      · cases answer <;> cases retriesLeft <;>
          exact .stays (TaskOp.ne_updateRun rfl) rfl
  | counting taskId limit =>
      cases permitted
      rcases answer with _ | runsCount
      · exact .stays (TaskOp.ne_updateRun rfl) rfl
      · simp only [TaskPhase.advance]
        split <;> exact .stays (TaskOp.ne_updateRun rfl) rfl
  | unlocking taskId registration =>
      cases permitted
      cases registration <;> cases answer <;> exact .stays (TaskOp.ne_updateRun rfl) rfl
  | _ => cases foreign

theorem executorMoves_advance
    {runHandle : TaskRunHandle}
    {phase : TaskPhase}
    {op : TaskOp}
    (answer : Except AppError op.Result)
    (permitted : phase.permits (.executor runHandle) op) :
    ExecutorMoves runHandle phase op answer
      (phase.advance (.executor runHandle) op answer) := by
  cases executes : phase.executes with
  | false => exact executorMoves_foreign answer executes permitted
  | true =>
      cases phase with
      | beginning =>
          cases permitted
          rcases answer with reason | found
          · exact .abandons (TaskOp.ne_updateRun rfl) (.inl rfl)
          · rcases found with none | task
            · exact .skips (.inl rfl) (by rintro _ ⟨⟩)
            · cases active : task.active with
              | true =>
                  simp only [TaskPhase.advance, TaskPhase.afterFirst, active, if_true]
                  exact .stays (TaskOp.ne_updateRun rfl) rfl
              | false =>
                  simp only [TaskPhase.advance, TaskPhase.afterFirst, active, Bool.false_eq_true,
                    if_false]
                  exact .skips (.inl rfl) (by rintro _ ⟨⟩; exact active)
      | launching taskConfig =>
          obtain ⟨_, _, rfl⟩ := permitted
          rcases answer with reason | container
          · exact .abandons (TaskOp.ne_updateRun rfl) (.inl rfl)
          · exact .stays (TaskOp.ne_updateRun rfl) rfl
      | marking container times =>
          obtain ⟨_, isCall, rfl⟩ := permitted
          cases isCall
          rcases answer with reason | _
          · exact .unwritten (.inl ⟨_, _, rfl⟩)
          · exact .starts
      | waiting container times =>
          rcases permitted with rfl | rfl
          · rcases answer with reason | exitCode <;> exact .stays (TaskOp.ne_updateRun rfl) rfl
          · rcases answer with reason | exitCode
            · exact .loses
            · exact .stays (TaskOp.ne_updateRun rfl) rfl
      | finishing container exitCode times =>
          obtain ⟨_, isCall, rfl⟩ := permitted
          cases isCall
          rcases answer with reason | _
          · exact .unwritten (.inl ⟨_, _, rfl⟩)
          · exact .finishes (by split <;> rfl)
      | removing container times =>
          obtain ⟨_, _, rfl⟩ := permitted
          rcases answer with reason | _
          · cases times <;> exact .abandons (TaskOp.ne_updateRun rfl) (.inr rfl)
          · cases times with
            | none => exact .stays (TaskOp.ne_updateRun rfl) rfl
            | some limit =>
                simp only [TaskPhase.advance]
                split <;> exact .stays (TaskOp.ne_updateRun rfl) rfl
      | autoUnscheduling =>
          obtain ⟨_, _, rfl⟩ := permitted
          rcases answer with reason | _
          · exact .abandons (TaskOp.ne_updateRun rfl) (.inr rfl)
          · exact .stays (TaskOp.ne_updateRun rfl) rfl
      | autoStopping =>
          obtain ⟨_, _, rfl | ⟨_, rfl⟩ | rfl | rfl⟩ := permitted
          · rcases answer with reason | _
            · exact .abandons (TaskOp.ne_updateRun rfl) (.inr rfl)
            · exact .stays (TaskOp.ne_updateRun rfl) rfl
          · exact .stays (TaskOp.ne_updateRun rfl) rfl
          · rcases answer with reason | _
            · exact .abandons (TaskOp.ne_updateRun rfl) (.inr rfl)
            · exact .stays (TaskOp.ne_updateRun rfl) rfl
          · rcases answer with reason | _
            · exact .abandons (TaskOp.ne_updateRun rfl) (.inr rfl)
            · exact .stays (TaskOp.ne_updateRun rfl) rfl
      | failing =>
          obtain ⟨_, isCall, rfl⟩ := permitted
          cases isCall
          rcases answer with reason | found
          · exact .givesUp (.inl rfl)
          · rcases found with none | task
            · exact .skips (.inr rfl) (by rintro _ ⟨⟩)
            · cases active : task.active with
              | true =>
                  simp only [TaskPhase.advance, active, if_true]
                  exact .stays (TaskOp.ne_updateRun rfl) rfl
              | false =>
                  simp only [TaskPhase.advance, active, Bool.false_eq_true, if_false]
                  exact .skips (.inr rfl) (by rintro _ ⟨⟩; exact active)
      | deactivating taskId =>
          cases permitted
          rcases answer with reason | _
          · exact .unwritten (.inr (.inl ⟨_, _, rfl⟩))
          · exact .stays (TaskOp.ne_updateRun rfl) rfl
      | unscheduling taskId =>
          cases permitted
          rcases answer with reason | _
          · exact .givesUp (.inr ⟨_, .inl rfl⟩)
          · exact .stays (TaskOp.ne_updateRun rfl) rfl
      | listing taskId =>
          cases permitted
          rcases answer with reason | _
          · exact .givesUp (.inr ⟨_, .inr rfl⟩)
          · exact .stays (TaskOp.ne_updateRun rfl) rfl
      | stopping taskId childrenLeft =>
          rcases permitted with ⟨isLeft, _, rfl⟩ | ⟨rfl, rfl⟩
          · cases childrenLeft with
            | zero => cases isLeft
            | succ childrenLeft => exact .stays (TaskOp.ne_updateRun rfl) rfl
          · rcases answer with reason | count
            · exact .unwritten (.inr (.inr ⟨_, _, _, rfl⟩))
            · exact .sweeps
      | settled resolved => cases permitted
      | leaving =>
          cases permitted
          cases answer <;> exact .stays (TaskOp.ne_updateRun rfl) rfl
      | _ => cases executes

theorem TaskPhase.over_of_permits
    {call : TaskCall}
    {phase : TaskPhase}
    (permitted : phase.permits call .leaveQueue) :
    phase.course = .concluded := by
  cases phase <;> simp [permits] at permitted
  case beginning => cases call <;> simp [TaskCall.firstOp] at permitted
  case leaving => rfl

/-- An executor stops the task of its own run. -/
def TaskPhase.StopsOwn (runHandle : TaskRunHandle) : TaskPhase → Prop
  | .deactivating taskId | .unscheduling taskId | .listing taskId
  | .stopping taskId _ => taskId = runHandle.taskId
  | _ => True

theorem stopsOwn_advance
    {runHandle : TaskRunHandle}
    {phase : TaskPhase}
    {op : TaskOp}
    {answer : Except AppError op.Result}
    (stopsOwn : phase.StopsOwn runHandle)
    (permitted : phase.permits (.executor runHandle) op) :
    (phase.advance (.executor runHandle) op answer).StopsOwn runHandle := by
  have advances := TaskPhase.advances_advance answer permitted
  generalize phase.advance (.executor runHandle) op answer = next at advances
  cases advances with
  | failed fails =>
      cases fails with
      | same => exact stopsOwn
      | stopping isPhase =>
          subst isPhase
          exact stopsOwn
      | _ => trivial
  | stops isCall => cases isCall
  | deactivated | unscheduled | listed | stopping => exact stopsOwn
  | fails isCall =>
      cases isCall
      rfl
  | _ => trivial

/-- An executor comes to no phase of another call. -/
theorem executes_advance
    {runHandle : TaskRunHandle}
    {phase : TaskPhase}
    {op : TaskOp}
    {answer : Except AppError op.Result}
    (executes : phase.executes = true)
    (permitted : phase.permits (.executor runHandle) op) :
    (phase.advance (.executor runHandle) op answer).executes = true := by
  have advances := TaskPhase.advances_advance answer permitted
  generalize phase.advance (.executor runHandle) op answer = next at advances
  cases advances with
  | failed fails =>
      cases fails with
      | same => exact executes
      | unlocking held =>
          cases phase <;> first | (cases held; done) | cases executes
      | _ => rfl
  | deletes isCall | stops isCall | starts isCall | updates isCall | fires isCall
  | built isCall => cases isCall
  | unnamed => cases permitted
  | _ => first | rfl | cases executes

section Answered

variable {config : TaskServerConfig}
variable {op : TaskOp}
variable {input : TaskInput ⊕ AppError}
variable {before after : TaskState}
variable {answer : Except AppError op.Result}
variable {runHandle : TaskRunHandle}
variable {course : RunCourse}
variable {taskId : Nat}

/-- A write of the database does not reject. -/
theorem not_rejected_of_write
    {reason : AppError}
    (answered :
      (taskHost config).failing TaskOp.mayReject op input before =
        some (.error reason, after))
    (isWrite :
      (∃ id dto, op = .updateRun id dto) ∨
        (∃ id value, op = .setTaskActive id value) ∨
        ∃ id status dto, op = .updateRunsByTaskAndStatus id status dto) :
    False := by
  rcases isWrite with ⟨_, _, rfl⟩ | ⟨_, _, rfl⟩ | ⟨_, _, _, rfl⟩
  all_goals
    rcases Host.of_failing answered with ⟨_, answered⟩ | ⟨mayFail, _⟩
    · cases answered
    · cases mayFail

/-- What a rejection leaves of the tables. -/
theorem tables_of_rejection
    {reason : AppError}
    (answered :
      (taskHost config).failing TaskOp.mayReject op input before =
        some (.error reason, after)) :
    after.tables = before.tables := by
  rcases Host.of_failing answered with ⟨_, answered⟩ | ⟨_, _, rfl⟩
  · exact tables_of_rejected answered
  · rfl

/-- A task that is not found active is not active, and nothing changes. -/
theorem not_isActive_of_skipped
    {found : Option Task}
    (answered :
      (taskHost config).failing TaskOp.mayReject (.findTaskById taskId) input before =
        some (.ok found, after))
    (inactive : ∀ task, found = some task → task.active = false) :
    ¬before.tables.IsActive taskId ∧ after = before := by
  rcases Host.of_failing answered with ⟨_, answered⟩ | ⟨_, ⟨_, rejected⟩, _⟩
  · obtain ⟨isFound, rfl⟩ := Prod.mk.inj (Option.some.inj answered)
    refine ⟨?_, rfl⟩
    rintro ⟨task, member, rfl, active⟩
    have found := (TaskTables.taskOf_of_mem member).symm.trans (Except.ok.inj isFound)
    rw [inactive task found.symm] at active
    cases active
  · cases rejected

/-- What does not update a run at most sweeps it. -/
theorem onCourse_of_answered
    {call : TaskCall}
    {phase : TaskPhase}
    {stage : RunStage}
    (permitted : phase.permits call op)
    (answered :
      (taskHost config).failing TaskOp.mayReject op input before =
        some (answer, after))
    (backs : before.tables.Backs runHandle stage)
    (notUpdated : ∀ dto, op ≠ .updateRun runHandle.runId dto)
    (onCourse : before.tables.OnCourse runHandle.runId course) :
    after.tables.OnCourse runHandle.runId course := by
  rcases Host.of_failing answered with ⟨_, answered⟩ | ⟨_, _, rfl⟩
  · intro run member isRun
    cases (runsStep_of_answered answered).origin run member with
    | kept oldMember sameId _ sameStatus =>
        rw [← sameStatus]
        exact onCourse _ oldMember (sameId.trans isRun)
    | updated _ _ _ isOp _ =>
        rw [isRun] at isOp
        exact (notUpdated _ isOp).elim
    | swept oldMember sameId _ isOp status =>
        subst isOp
        obtain ⟨_, isPending, isStopped⟩ := TaskPhase.stopping_of_permits permitted
        exact (onCourse _ oldMember (sameId.trans isRun)).swept
          (.inr ⟨isPending, status.trans isStopped⟩)
    | inserted _ fresh =>
        rw [isRun] at fresh
        exact absurd fresh (Nat.ne_of_lt backs.known)
  · exact onCourse

/-- An update gives the row of a run its status. -/
theorem onCourse_of_updated
    {dto : UpdateTaskRunDto}
    {answer : Except AppError Unit}
    (answered :
      (taskHost config).failing TaskOp.mayReject (.updateRun runHandle.runId dto) input
          before =
        some (answer, after))
    (allowed : course.Allows dto.status) :
    after.tables.OnCourse runHandle.runId course := by
  rcases Host.of_failing answered with ⟨_, answered⟩ | ⟨mayFail, _⟩
  · cases answered
    intro run member isRun
    obtain ⟨old, _, rfl⟩ := TaskTables.mem_updateRuns.mp member
    split at isRun
    · rename_i isRow
      rw [if_pos isRow]
      exact allowed
    · rename_i notRow
      exact (notRow (beq_iff_eq.mpr isRun)).elim
  · cases mayFail

/-- After the sweep of its task no run is pending. -/
theorem onCourse_of_swept
    {stage : RunStage}
    {answer : Except AppError Nat}
    (answered :
      (taskHost config).failing TaskOp.mayReject
          (.updateRunsByTaskAndStatus runHandle.taskId .pending { status := .stopped })
          input before =
        some (answer, after))
    (backs : before.tables.Backs runHandle stage)
    (onCourse : before.tables.OnCourse runHandle.runId .abandoned) :
    after.tables.OnCourse runHandle.runId .concluded := by
  rcases Host.of_failing answered with ⟨_, answered⟩ | ⟨mayFail, _⟩
  · cases answered
    intro run member isRun
    obtain ⟨old, oldMember, rfl⟩ := TaskTables.mem_updateRuns.mp member
    split at isRun
    · rename_i isSwept
      rw [if_pos isSwept]
      rfl
    · rename_i notSwept
      rw [if_neg notSwept]
      refine (onCourse old oldMember isRun).over_of_abandoned fun isPending => notSwept ?_
      rw [(backs.row old oldMember isRun).1, isPending, beq_self_eq_true, beq_self_eq_true]
      rfl
  · cases mayFail

end Answered

/--
The condition on an answer to the executor of a run with a row: its first look
finds the task active if the run is pending; the exit code is told if the run
is running; and where the executor stops the task with the run still pending,
the task is active and no call before the sweep rejects.
-/
structure KeepsCourse
    (config : TaskServerConfig)
    (state : TaskState)
    (taskId : Nat)
    (phase : TaskPhase)
    (op : TaskOp)
    (input : TaskInput ⊕ AppError)
    (status : TaskRunStatus) :
    Prop where
  looks :
    phase = .beginning →
    status = .pending →
    op.Rejects config input state ∨ state.tables.IsActive taskId
  told :
    (∃ container, op = .dockerInspectExitCode container) →
    status = .running →
    ¬op.Rejects config input state
  finds : phase = .failing → status = .pending → state.tables.IsActive taskId
  stops :
    (phase = .failing ∨ ∃ id, phase = .unscheduling id ∨ phase = .listing id) →
    status = .pending →
    ¬op.Rejects config input state

/-- The condition on a turn, for the executor that it answers. -/
def Interleaving.KeepsCourses
    (config : TaskServerConfig)
    (before : Interleaving TaskState taskProtocol) :
    Turn TaskCall (TaskInput ⊕ AppError) → Prop
  | .invoke _ _ => True
  | .resume pid input =>
      ∀ runHandle phase op,
        before.view.progress pid = some ⟨.executor runHandle, phase⟩ →
        before.Awaits pid op →
        ∀ run ∈ before.shared.tables.taskRuns.rows,
          run.id = runHandle.runId →
          KeepsCourse config before.shared runHandle.taskId phase op input run.status

namespace TaskView

/-- A run waits in the queue, or its callback still has to enqueue it. -/
def Unexecuted (view : TaskView) (runHandle : TaskRunHandle) : Prop :=
  runHandle ∈ view.shared.queue ∨
    ∃ pid call phase,
      view.progress pid = some ⟨call, phase⟩ ∧
        (∀ other, call ≠ .executor other) ∧
        phase.handle? = some runHandle

/-- Every run is on the course that its carrier tells. -/
structure OnCourse (view : TaskView) : Prop where
  owned : view.RunsOwned
  unexecuted :
    ∀ runHandle,
      view.Unexecuted runHandle →
      view.shared.tables.OnCourse runHandle.runId .unstarted
  executed :
    ∀ pid runHandle phase,
      view.progress pid = some ⟨.executor runHandle, phase⟩ →
      phase.StopsOwn runHandle ∧
        view.shared.tables.OnCourse runHandle.runId phase.course

variable {config : TaskServerConfig}
variable {view : TaskView}
variable {pid other : Nat}
variable {call : TaskCall}
variable {phase : TaskPhase}
variable {op : TaskOp}
variable {input : TaskInput ⊕ AppError}
variable {answer : Except AppError op.Result}
variable {shared : TaskState}
variable {runHandle : TaskRunHandle}

/-- The run of an executor that moves stays on course. -/
theorem OnCourse.moved
    (onCourse : view.OnCourse)
    (keepsCourse :
      ∀ run ∈ view.shared.tables.taskRuns.rows,
        run.id = runHandle.runId →
        KeepsCourse config view.shared runHandle.taskId phase op input run.status)
    (present : view.progress pid = some ⟨.executor runHandle, phase⟩)
    (permitted : phase.permits (.executor runHandle) op)
    (answered :
      (taskHost config).failing TaskOp.mayReject op input view.shared =
        some (answer, shared)) :
    shared.tables.OnCourse runHandle.runId
      (phase.advance (.executor runHandle) op answer).course := by
  obtain ⟨stopsOwn, allowed⟩ := onCourse.executed pid runHandle phase present
  have backs := onCourse.owned.known pid runHandle phase.stage ⟨_, _, present, rfl⟩
  have moves := executorMoves_advance answer permitted
  generalize phase.advance (.executor runHandle) op answer = next at moves
  cases moves with
  | stays notUpdated same =>
      rw [same]
      exact onCourse_of_answered permitted answered backs notUpdated allowed
  | abandons notUpdated course =>
      refine onCourse_of_answered permitted answered backs notUpdated
        fun run member isRun => ?_
      have isAllowed := allowed run member isRun
      rcases course with isCourse | isCourse
      · rw [isCourse] at isAllowed
        exact isAllowed.abandoned_of_unstarted
      · rw [isCourse] at isAllowed
        exact isAllowed.abandoned_of_concluded
  | skips looks inactive =>
      obtain ⟨notActive, rfl⟩ := not_isActive_of_skipped answered inactive
      intro run member isRun
      have keeps := keepsCourse run member isRun
      have isAllowed := allowed run member isRun
      rcases looks with rfl | rfl
      · refine isAllowed.over_of_unstarted fun pending => ?_
        rcases keeps.looks rfl pending with ⟨_, _, rejected⟩ | active
        · rw [answered] at rejected
          cases rejected
        · exact notActive active
      · exact isAllowed.over_of_abandoned fun pending =>
          notActive (keeps.finds rfl pending)
  | starts => exact onCourse_of_updated answered rfl
  | loses =>
      intro run member isRun
      rw [tables_of_rejection answered] at member
      have keeps := keepsCourse run member isRun
      exact (keeps.told ⟨_, rfl⟩ (allowed run member isRun) ⟨_, _, answered⟩).elim
  | finishes isFinal => exact onCourse_of_updated answered isFinal
  | givesUp stops =>
      intro run member isRun
      rw [tables_of_rejection answered] at member
      have keeps := keepsCourse run member isRun
      have isAllowed := allowed run member isRun
      refine RunCourse.Allows.over_of_abandoned ?_ fun pending =>
        keeps.stops stops pending ⟨_, _, answered⟩
      rcases stops with rfl | ⟨_, rfl | rfl⟩ <;> exact isAllowed
  | sweeps =>
      cases stopsOwn
      exact onCourse_of_swept answered backs allowed
  | unwritten isWrite => exact (not_rejected_of_write answered isWrite).elim

/-- A run that waits is known, and no executor moves with it. -/
theorem RunsOwned.known_unexecuted
    (owned : view.RunsOwned)
    (unexecuted : view.Unexecuted runHandle) :
    view.shared.tables.Backs runHandle .ended ∧
      ∀ pid own phase,
        view.progress pid = some ⟨.executor own, phase⟩ →
        own.runId ≠ runHandle.runId := by
  rcases unexecuted with queued | ⟨other, call, phase, present, notExecutor, registered⟩
  · refine ⟨owned.queued runHandle queued, ?_⟩
    intro pid own phase present same
    exact owned.notQueued pid own phase.stage ⟨_, _, present, rfl⟩
      (List.mem_map.mpr ⟨runHandle, queued, same.symm⟩)
  · have carries : view.Carries other runHandle .waiting := by
      refine ⟨call, phase, present, ?_⟩
      cases call with
      | executor own => exact (notExecutor own rfl).elim
      | _ => exact Option.map_eq_some_iff.mpr ⟨_, registered, rfl⟩
    refine ⟨owned.known other runHandle .waiting carries, ?_⟩
    intro pid own ownPhase ownPresent same
    obtain rfl := owned.unique pid other own runHandle ownPhase.stage .waiting
      ⟨_, _, ownPresent, rfl⟩ carries same
    rw [present] at ownPresent
    cases ownPresent
    exact notExecutor own rfl

/-- What waits after an answer has waited before, or it is a new pending run. -/
theorem unexecuted_of_answered
    (present : view.progress pid = some ⟨call, phase⟩)
    (permitted : phase.permits call op)
    (answered :
      (taskHost config).failing TaskOp.mayReject op input view.shared =
        some (answer, shared))
    (unexecuted :
      TaskView.Unexecuted
        (view.place pid ⟨call, phase.advance call op answer⟩ shared) runHandle) :
    view.Unexecuted runHandle ∨
      (runHandle.runId = view.shared.tables.taskRuns.nextId ∧
        shared.tables.Backs runHandle .waiting) := by
  have carried
      {own : TaskRunHandle}
      {stage : RunStage}
      (notExecutor : ∀ other, call ≠ .executor other)
      (carries : view.Carries pid own stage) :
      view.Unexecuted own := by
    obtain ⟨_, _, found, isCarried⟩ := carries
    rw [present] at found
    cases found
    rcases TaskCall.carried_cases isCarried with ⟨isExecutor, _⟩ | ⟨_, registered, _⟩
    · exact (notExecutor own isExecutor).elim
    · exact .inr ⟨pid, call, phase, present, notExecutor, registered⟩
  rcases unexecuted with queued | ⟨other, otherCall, otherPhase, found, notExecutor, registered⟩
  · change runHandle ∈ shared.queue at queued
    rcases queue_of_failing present permitted answered with
        sameQueue | ⟨own, rfl, grown, carriesOwn, _⟩
    · exact .inl (.inl (sameQueue ▸ queued))
    · obtain ⟨rfl, taskId, rfl⟩ := TaskPhase.enqueueing_of_permits permitted
      rw [grown] at queued
      rcases List.mem_append.mp queued with old | isOwn
      · exact .inl (.inl old)
      · rw [List.mem_singleton.mp isOwn]
        exact .inl (carried nofun carriesOwn)
  · rcases Protocol.View.place_cases found with ⟨rfl, shape⟩ | ⟨_, earlier⟩
    · cases shape
      have isCarried :
          call.carried (phase.advance call op answer) = some (runHandle, .waiting) := by
        cases call with
        | executor own => exact (notExecutor own rfl).elim
        | _ => exact Option.map_eq_some_iff.mpr ⟨_, registered, rfl⟩
      rcases carried_of_advance present permitted answered isCarried with
          ⟨_, carries⟩ | isNew
      · exact .inl (carried notExecutor carries)
      · exact .inr isNew
    · exact .inl (.inr ⟨other, otherCall, otherPhase, earlier, notExecutor, registered⟩)

/-- A run that waits goes on waiting, whatever is answered. -/
theorem unexecuted_kept
    {input : TaskInput}
    (present : view.progress pid = some ⟨call, phase⟩)
    (permitted : phase.permits call op)
    (answered : taskHost config op input view.shared = some (answer, shared))
    (unexecuted : view.Unexecuted runHandle) :
    TaskView.Unexecuted
      (view.place pid ⟨call, phase.advance call op answer⟩ shared) runHandle := by
  rcases unexecuted with
      queued | ⟨other, otherCall, otherPhase, found, notExecutor, registered⟩
  · refine .inl ?_
    change runHandle ∈ shared.queue
    rcases queue_of_answered present permitted answered with
        sameQueue | ⟨own, _, grown, _⟩
    · rw [sameQueue]
      exact queued
    · rw [grown]
      exact List.mem_append_left _ queued
  · by_cases isPid : other = pid
    · subst isPid
      rw [present] at found
      cases found
      cases phase with
      | unlocking taskId registration =>
          cases permitted
          cases answered
          cases registration with
          | registered taskRun =>
              exact .inr ⟨other, call, _, Function.update_self .., notExecutor, registered⟩
          | _ => cases registered
      | enqueueing own =>
          obtain ⟨_, rfl⟩ := permitted
          cases answered
          cases registered
          exact .inl (List.mem_append_right _ List.mem_cons_self)
      | _ => cases registered
    · exact .inr ⟨other, otherCall, otherPhase,
        (Function.update_of_ne isPid ..).trans found, notExecutor, registered⟩

/-- The run that a callback has inserted waits for it to be enqueued. -/
theorem unexecuted_created
    {input : TaskInput}
    {taskId : Nat}
    {rank : RunRank}
    {run : TaskRun}
    {answer : Except AppError TaskRun}
    (notExecutor : ∀ own, call ≠ .executor own)
    (answered :
      taskHost config (.insertRun taskId rank .pending) input view.shared =
        some (answer, shared))
    (member : run ∈ shared.tables.taskRuns.rows)
    (fresh : run.id = view.shared.tables.taskRuns.nextId) :
    ∃ runHandle,
      runHandle.runId = run.id ∧
        runHandle.taskId = taskId ∧
          TaskView.Unexecuted
            (view.place pid
              ⟨call,
                TaskPhase.advance call (.creating taskId rank)
                  (.insertRun taskId rank .pending) answer⟩
              shared)
            runHandle := by
  rcases TaskState.attempt_eq answered with ⟨created, _, inserted, rfl, rfl⟩ | ⟨_, _, _, rfl⟩
  · have isNew : created.id = view.shared.tables.taskRuns.nextId :=
      (TaskTables.insertRun_eq inserted).1
    exact ⟨{ taskId, runId := created.id, runRank := created.rank },
      isNew.trans fresh.symm, rfl,
      .inr ⟨pid, call, _, Function.update_self .., notExecutor, rfl⟩⟩
  · exact absurd fresh
      (Nat.ne_of_lt (view.shared.tables.taskRuns.keysBelow run member))

/-- A turn within the condition that answers an operation. -/
theorem OnCourse.answered
    (onCourse : view.OnCourse)
    (keepsCourse :
      ∀ runHandle,
        call = .executor runHandle →
        ∀ run ∈ view.shared.tables.taskRuns.rows,
          run.id = runHandle.runId →
          KeepsCourse config view.shared runHandle.taskId phase op input run.status)
    (present : view.progress pid = some ⟨call, phase⟩)
    (permitted : phase.permits call op)
    (answered :
      (taskHost config).failing TaskOp.mayReject op input view.shared =
        some (answer, shared)) :
    TaskView.OnCourse
      (view.place pid ⟨call, phase.advance call op answer⟩ shared) := by
  -- only its own executor updates a run
  have notUpdated
      {runHandle : TaskRunHandle}
      (notOwn :
        ∀ own, call = .executor own → own.runId ≠ runHandle.runId)
      (dto : UpdateTaskRunDto) :
      op ≠ .updateRun runHandle.runId dto := by
    rintro rfl
    obtain ⟨own, rfl, same, _⟩ := TaskPhase.updating_of_permits permitted
    exact notOwn own rfl same.symm
  refine ⟨onCourse.owned.answered present permitted answered, ?_, ?_⟩
  · intro runHandle unexecuted
    rcases unexecuted_of_answered present permitted answered unexecuted with
        earlier | ⟨_, backs⟩
    · obtain ⟨backs, notOwn⟩ := onCourse.owned.known_unexecuted earlier
      refine onCourse_of_answered permitted answered backs (notUpdated ?_)
        (onCourse.unexecuted runHandle earlier)
      rintro own rfl
      exact notOwn pid own phase present
    · intro run member isRun
      exact (backs.row run member isRun).2.imp_right And.left
  · intro other runHandle otherPhase found
    rcases Protocol.View.place_cases found with ⟨rfl, shape⟩ | ⟨different, earlier⟩
    · cases shape
      exact ⟨stopsOwn_advance (onCourse.executed other runHandle phase present).1 permitted,
        onCourse.moved (keepsCourse runHandle rfl) present permitted answered⟩
    · obtain ⟨stopsOwn, allowed⟩ := onCourse.executed other runHandle otherPhase earlier
      have carries : view.Carries other runHandle otherPhase.stage := ⟨_, _, earlier, rfl⟩
      refine ⟨stopsOwn, onCourse_of_answered permitted answered
        (onCourse.owned.known _ _ _ carries) (notUpdated ?_) allowed⟩
      rintro own rfl same
      exact different (onCourse.owned.unique other pid runHandle own otherPhase.stage
        phase.stage carries ⟨_, _, present, rfl⟩ same.symm)

/-- What waits when a call has begun has waited before. -/
theorem unexecuted_of_begun
    (begun : beginTaskCall config call view.shared = some shared)
    (unexecuted :
      TaskView.Unexecuted (view.place pid ⟨call, taskProtocol.start call⟩ shared)
        runHandle) :
    view.Unexecuted runHandle := by
  rcases unexecuted with
      queued | ⟨other, otherCall, otherPhase, found, notExecutor, registered⟩
  · exact .inl (mem_queue_of_begun begun queued)
  · rcases Protocol.View.place_cases found with ⟨_, shape⟩ | ⟨_, earlier⟩
    · cases shape
      cases call <;> cases registered
    · exact .inr ⟨other, otherCall, otherPhase, earlier, notExecutor, registered⟩

/-- A run that waits goes on waiting, or its executor begins. -/
theorem unexecuted_begun
    (fresh : view.progress pid = none)
    (begun : beginTaskCall config call view.shared = some shared)
    (unexecuted : view.Unexecuted runHandle) :
    TaskView.Unexecuted (view.place pid ⟨call, taskProtocol.start call⟩ shared)
        runHandle ∨
      (view.place pid ⟨call, taskProtocol.start call⟩ shared).progress pid =
        some ⟨.executor runHandle, .beginning⟩ := by
  rcases unexecuted with
      queued | ⟨other, otherCall, otherPhase, found, notExecutor, registered⟩
  · rcases queue_of_begun begun with ⟨sameQueue, _⟩ | ⟨own, rfl, shape⟩
    · refine .inl (.inl ?_)
      change runHandle ∈ shared.queue
      rw [sameQueue]
      exact queued
    · rw [shape] at queued
      rcases List.mem_cons.mp queued with rfl | rest
      · exact .inr (Function.update_self ..)
      · exact .inl (.inl rest)
  · have isOther : other ≠ pid := by
      rintro rfl
      rw [fresh] at found
      cases found
    exact .inl (.inr ⟨other, otherCall, otherPhase,
      (Function.update_of_ne isOther ..).trans found, notExecutor, registered⟩)

/-- A call that begins changes no row; an executor takes a run that has waited. -/
theorem OnCourse.begun
    (onCourse : view.OnCourse)
    (begun : beginTaskCall config call view.shared = some shared) :
    TaskView.OnCourse (view.place pid ⟨call, taskProtocol.start call⟩ shared) := by
  have sameTables := (beginTaskCall_keeps begun).1
  refine ⟨onCourse.owned.begun begun, ?_, ?_⟩
  · intro runHandle unexecuted
    change shared.tables.OnCourse runHandle.runId .unstarted
    rw [sameTables]
    exact onCourse.unexecuted runHandle (unexecuted_of_begun begun unexecuted)
  · intro other runHandle otherPhase found
    change _ ∧ shared.tables.OnCourse runHandle.runId _
    rw [sameTables]
    rcases Protocol.View.place_cases found with ⟨_, shape⟩ | ⟨_, earlier⟩
    · cases shape
      refine ⟨trivial, onCourse.unexecuted runHandle (.inl ?_)⟩
      rcases queue_of_begun begun with ⟨_, carriesNone⟩ | ⟨own, isCall, shape⟩
      · cases carriesNone
      · cases isCall
        rw [shape]
        exact List.mem_cons_self
    · exact onCourse.executed other runHandle otherPhase earlier

/-- A turn within the condition keeps the runs on course. -/
theorem OnCourse.step
    {before after : Interleaving TaskState taskProtocol}
    {turn : Turn TaskCall (TaskInput ⊕ AppError)}
    (onCourse : TaskView.OnCourse before.view)
    (conforming : before.Conforming)
    (keeps : before.KeepsCourses config turn)
    (stepped : before.step? (rejectingTaskServices config) turn = some after) :
    TaskView.OnCourse after.view := by
  cases turn with
  | invoke pid call =>
      have taken :
          Interleaving.Step (rejectingTaskServices config) (fun _ _ => True) before
            (.invoke pid call) after :=
        ⟨trivial, stepped⟩
      have moves := (taken.moves TaskPhase.conforms_taskBody conforming).1
      generalize after.view = next at moves
      cases moves with
      | invoke _ begun => exact onCourse.begun begun
  | resume pid input =>
      obtain ⟨call, phase, op, answer, shared, present, awaits, permitted, answered, same⟩ :=
        conforming.resumes stepped
      rw [same]
      refine onCourse.answered ?_ present permitted answered
      rintro runHandle rfl
      exact keeps runHandle phase op present awaits

/-- After a start-up the queue has the pending runs. -/
theorem OnCourse.initially
    {crashed start : TaskState}
    (starts :
      Settles (taskHost config) TaskService.registerFromDatabase crashed.restarted
        (.ok ()) start) :
    TaskView.OnCourse (.initial taskProtocol start) := by
  have rows
      {runHandle : TaskRunHandle}
      (queued : runHandle ∈ start.queue) :
      start.tables.Backs runHandle .launching := by
    obtain ⟨row, member, isRow, ofTask, pending⟩ :=
      row_of_registerFromDatabase starts queued
    refine ⟨?_, fun run runMember isRun => ?_⟩
    · rw [← isRow]
      exact start.tables.taskRuns.keysBelow row member
    · rw [Table.eq_of_key runMember member (isRun.trans isRow.symm)]
      exact ⟨ofTask, pending⟩
  have noCall
      {pid : Nat}
      {progress : taskProtocol.Progress}
      (present :
        Protocol.View.progress (.initial taskProtocol start) pid = some progress) :
      False := by
    cases present
  have noCarrier
      (pid : Nat)
      (runHandle : TaskRunHandle)
      (stage : RunStage) :
      ¬TaskView.Carries (.initial taskProtocol start) pid runHandle stage :=
    fun ⟨_, _, present, _⟩ => noCall present
  have nodup : (start.queue.map TaskRunHandle.runId).Nodup := by
    rw [(queue_of_registerFromDatabase starts).2]
    exact TaskTables.nodup_startedRuns
  constructor
  · exact
      { known := fun pid _ _ carries => (noCarrier pid _ _ carries).elim
        queued := fun _ queued => (rows queued).owned
        unique := fun pid _ _ _ _ _ carries => (noCarrier pid _ _ carries).elim
        queueNodup := nodup
        notQueued := fun pid _ _ carries => (noCarrier pid _ _ carries).elim }
  · rintro runHandle (queued | ⟨_, _, _, present, _⟩)
    · exact fun run member isRun => .inl ((rows queued).row run member isRun).2
    · exact (noCall present).elim
  · exact fun pid runHandle phase present => (noCall present).elim

end TaskView

/-- `runTask` has settled; its executor leaves the queue or has left it. -/
def Interleaving.RunSettled
    (final : Interleaving TaskState taskProtocol)
    (runHandle : TaskRunHandle) :
    Prop :=
  ∃ pid process,
    final.processes pid = some process ∧
      process.call = .executor runHandle ∧
      ((∃ resume, process.residual = .await .leaveQueue resume) ∨
        ∃ outcome, process.residual = .settled outcome)

/-- An executor whose run has settled says nothing more of it. -/
theorem Interleaving.RunSettled.concluded
    {final : Interleaving TaskState taskProtocol}
    {runHandle : TaskRunHandle}
    (settled : final.RunSettled runHandle)
    (conforming : final.Conforming) :
    ∃ pid phase,
      final.view.progress pid = some ⟨.executor runHandle, phase⟩ ∧
        phase.course = .concluded := by
  obtain ⟨pid, process, present, isCall, ends⟩ := settled
  have conforms := conforming pid process present
  refine ⟨pid, process.phase, by simp [Interleaving.view, present, isCall], ?_⟩
  rcases ends with ⟨resume, leaves⟩ | ⟨outcome, hasSettled⟩
  · rw [leaves] at conforms
    exact TaskPhase.over_of_permits conforms.1
  · rw [hasSettled] at conforms
    rw [show process.phase = _ from conforms]
    rfl

/--
From any start-up on, in every interleaving of the task calls in which the
calls besides the writes of the database may reject and the turns keep the runs
on course: when the executor of a run has settled, the row of the run is over.
-/
theorem executedRuns_final
    (config : TaskServerConfig)
    (crashed start : TaskState)
    (starts :
      Settles (taskHost config) TaskService.registerFromDatabase crashed.restarted
        (.ok ()) start)
    (turns : List (Turn TaskCall (TaskInput ⊕ AppError)))
    (final : Interleaving TaskState taskProtocol)
    (run :
      Run
        (Interleaving.StepWhere (rejectingTaskServices config)
          (Interleaving.KeepsCourses config))
        (.initial taskProtocol start) turns final)
    (runHandle : TaskRunHandle)
    (settled : final.RunSettled runHandle) :
    ∀ row ∈ final.shared.tables.taskRuns.rows,
      row.id = runHandle.runId → row.status.isFinal = true := by
  have programs
      (call : TaskCall) :
      taskProtocol.Conforms call (taskProtocol.start call)
        ((rejectingTaskServices config).body call) :=
    TaskPhase.conforms_taskBody call
  obtain ⟨onCourse, conforming⟩ :=
    Interleaving.invariant_of_run programs TaskView.OnCourse
      (fun before turn after conforming keeps stepped onCourse =>
        onCourse.step conforming keeps stepped)
      (.initially starts) run
  obtain ⟨pid, phase, present, isOver⟩ := settled.concluded conforming
  have allowed := (onCourse.executed pid runHandle phase present).2
  rw [isOver] at allowed
  exact allowed

/-- A check for turns in which nothing but a launch rejects. -/
def coursesChecked
    (config : TaskServerConfig)
    (before : Interleaving TaskState taskProtocol) :
    Turn TaskCall (TaskInput ⊕ AppError) → Bool
  | .invoke _ _ => true
  | .resume pid input =>
      match before.processes pid with
      | some ⟨.executor runHandle, phase, .await op _⟩ =>
          let launches :=
            match phase, op with
            | .launching _, .runEnv _ _ => true
            | _, _ => false
          let rejects :=
            match (taskHost config).failing TaskOp.mayReject op input before.shared with
            | some (.error _, _) => true
            | _ => false
          let isActive :=
            (before.shared.tables.taskOf runHandle.taskId).any fun task => task.active
          (launches || !rejects) && (!(phase == .beginning || phase == .failing) || isActive)
      | _ => true

theorem keepsCourses_of_coursesChecked
    {config : TaskServerConfig}
    (before : Interleaving TaskState taskProtocol)
    (turn : Turn TaskCall (TaskInput ⊕ AppError))
    (passed : coursesChecked config before turn = true) :
    before.KeepsCourses config turn := by
  cases turn with
  | invoke pid call => trivial
  | resume pid input =>
      rintro runHandle phase op present ⟨process, resume, found, awaiting⟩ run _ _
      obtain ⟨call, ownPhase, residual⟩ := process
      obtain ⟨rfl, rfl⟩ : call = .executor runHandle ∧ ownPhase = phase := by
        simpa [Interleaving.view, found] using present
      change residual = _ at awaiting
      subst awaiting
      simp only [coursesChecked, found, Bool.and_eq_true] at passed
      obtain ⟨resolves, looks⟩ := passed
      have active
          (isLook : (ownPhase == .beginning || ownPhase == .failing) = true) :
          before.shared.tables.IsActive runHandle.taskId := by
        rw [isLook] at looks
        obtain ⟨task, isTask, active⟩ := (Option.any_eq_true ..).mp looks
        obtain ⟨member, sameId⟩ := Table.mem_of_first isTask
        exact ⟨task, member, beq_iff_eq.mp sameId, active⟩
      constructor
      · rintro rfl _
        exact .inr (active rfl)
      · rintro ⟨container, rfl⟩ _ ⟨_, _, rejected⟩
        rw [rejected] at resolves
        cases ownPhase <;> cases resolves
      · rintro rfl _
        exact active rfl
      · rintro stops _ ⟨_, _, rejected⟩
        rw [rejected] at resolves
        rcases stops with rfl | ⟨_, rfl | rfl⟩ <;> cases resolves

/-- A task is created and built, and its entry fires once. -/
def firedTurns : List (Turn TaskCall (TaskInput ⊕ AppError)) :=
  [.invoke 0 (.createTask 1 1 minutely)] ++ answers 0 5 ++
    [.invoke 1 (.build 1 minutely)] ++ answers 1 2 ++
    [.invoke 2 (.callback 1)] ++ answers 2 5

/-- The container of the run cannot be launched, and the executor stops the task. -/
def unlaunchedTurns : List (Turn TaskCall (TaskInput ⊕ AppError)) :=
  [.invoke 3 (.executor ⟨1, 1, .infinity⟩), .resume 3 (.inl .done),
    .resume 3 (.inr (.failure "no such image"))] ++ answers 3 3 ++
    [.resume 3 (.inl (.children [])), .resume 3 (.inl .done)]

theorem executedRuns_final_unlaunched :
    ∃ final,
      Run
          (Interleaving.StepWhere (rejectingTaskServices lenientServer)
            (Interleaving.KeepsCourses lenientServer))
          (.initial taskProtocol .initial) (firedTurns ++ unlaunchedTurns) final ∧
        final.RunSettled ⟨1, 1, .infinity⟩ ∧
        final.shared.tables.taskRuns.rows.map TaskRun.status = [.stopped] ∧
        ∀ row ∈ final.shared.tables.taskRuns.rows,
          row.id = 1 → row.status.isFinal = true := by
  have starts :
      Settles (taskHost lenientServer) TaskService.registerFromDatabase
        TaskState.initial.restarted (.ok ()) .initial :=
    Settles.of_runAlone [.done] rfl
  have run
      (final : Interleaving TaskState taskProtocol)
      (executed :
        (firedTurns ++ unlaunchedTurns).foldlM
            (fun config turn =>
              if coursesChecked lenientServer config turn then
                config.step? (rejectingTaskServices lenientServer) turn
              else
                none)
            (.initial taskProtocol .initial) =
          some final) :=
    Interleaving.runWhere_of_foldlM keepsCourses_of_coursesChecked executed
  refine ⟨_, run _ rfl, ⟨3, _, rfl, rfl, .inl ⟨_, rfl⟩⟩, rfl,
    executedRuns_final lenientServer .initial .initial starts _ _ (run _ rfl)
      ⟨1, 1, .infinity⟩ ⟨3, _, rfl, rfl, .inl ⟨_, rfl⟩⟩⟩

/-- Neither command tells the exit code, and the executor stops the task. -/
def untoldTurns : List (Turn TaskCall (TaskInput ⊕ AppError)) :=
  [.invoke 3 (.executor ⟨1, 1, .infinity⟩), .resume 3 (.inl .done),
    .resume 3 (.inl (.container "worker")), .resume 3 (.inl .done),
    .resume 3 (.inl (.refused "no connection")),
    .resume 3 (.inl (.refused "no connection"))] ++ answers 3 3 ++
    [.resume 3 (.inl (.children ["worker"])), .resume 3 (.inl (.exitCode 137)),
      .resume 3 (.inl .done)]

/-- The executor of a run has settled, and the row is left as running. -/
theorem executedRun_leftRunning :
    ∃ final,
      Run (Interleaving.Step (rejectingTaskServices lenientServer) fun _ _ => True)
          (.initial taskProtocol .initial) (firedTurns ++ untoldTurns) final ∧
        final.RunSettled ⟨1, 1, .infinity⟩ ∧
        final.shared.tables.taskRuns.rows.map TaskRun.status = [.running] :=
  ⟨_, Interleaving.run_of_foldlM rfl, ⟨3, _, rfl, rfl, .inl ⟨_, rfl⟩⟩, rfl⟩

end Prescott
