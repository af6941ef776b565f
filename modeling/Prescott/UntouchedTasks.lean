import Prescott.StartUp

namespace Prescott

/-!
# Tasks that the start-up has not come to

What the calls of a starting process do is done for their own tasks.  A task
whose runs have not been scanned yet has no executor, no entry and no build, so
that nothing is done for it.
-/

/-- The phases of a call that is begun by the server itself, for its own task. -/
def TaskCall.Serves : TaskCall → TaskPhase → Prop
  | .executor runHandle, phase => phase.executes = true ∧ phase.StopsOwn runHandle
  | .build taskId _, .starting id => id = taskId
  | .callback taskId, .locking id _ _ | .callback taskId, .counting id _
  | .callback taskId, .creating id _ | .callback taskId, .unlocking id _
  | .callback taskId, .disabling id => id = taskId
  | .callback taskId, .enqueueing runHandle => runHandle.taskId = taskId
  | .build _ _, .beginning | .callback _, .beginning => True
  | .build _ _, .settled _ | .callback _, .settled _ | .exit _ _, .settled _ => True
  | _, _ => False

/-- What a call does that serves its own task. -/
structure TaskCall.Does (call : TaskCall) (op : TaskOp) : Prop where
  schedules : ∀ id scheduleConfig, op ≠ .schedulerSchedule id scheduleConfig
  dispatches : ∀ id taskConfig, op ≠ .dispatchBuild id taskConfig
  activates : ∀ id, op ≠ .setTaskActive id true
  enqueues : ∀ runHandle, op = .enqueue runHandle → call.taskId? = some runHandle.taskId

section Serves

variable {call : TaskCall}
variable {phase : TaskPhase}
variable {op : TaskOp}

theorem TaskCall.serves_start
    (notRequest : call.isClientRequest = false) :
    call.Serves (taskProtocol.start call) := by
  cases call with
  | executor runHandle => exact ⟨rfl, trivial⟩
  | build | callback | exit => trivial
  | _ => cases notRequest

theorem TaskCall.Serves.advance
    (serves : call.Serves phase)
    (permitted : phase.permits call op)
    (answer : Except AppError op.Result) :
    call.Serves (phase.advance call op answer) := by
  cases call with
  | executor runHandle =>
      exact ⟨executes_advance serves.1 permitted, stopsOwn_advance serves.2 permitted⟩
  | build taskId taskConfig =>
      cases phase <;> first | exact serves.elim | skip
      case beginning =>
        cases permitted
        rcases answer with _ | _
        · trivial
        · rfl
      case starting =>
        cases permitted
        rcases answer with _ | _ <;> trivial
      case settled => exact permitted.elim
  | callback taskId =>
      cases phase <;> first | exact serves.elim | skip
      case beginning =>
        cases permitted
        rcases answer with _ | _ | task
        · trivial
        · trivial
        · change TaskCall.Serves _
            (if task.active then .locking taskId task.config.times 4 else .settled true)
          split
          · rfl
          · trivial
      case locking id times retriesLeft =>
        rcases permitted with rfl | rfl
        · rcases answer with _ | _ | _
          · trivial
          · exact serves
          · cases times <;> exact serves
        · rcases answer with _ | _
          · trivial
          · cases retriesLeft
            · trivial
            · exact serves
      case counting id limit =>
        cases permitted
        rcases answer with _ | runsCount
        · exact serves
        · change TaskCall.Serves _
            (if (runsCount : Rat) < limit then .creating id (.finite (runsCount + 1))
            else .unlocking id .refused)
          split <;> exact serves
      case creating =>
        cases permitted
        rcases answer with _ | _ <;> exact serves
      case unlocking id registration =>
        cases permitted
        cases registration <;> rcases answer with _ | _ <;> first | exact serves | trivial
      case disabling | enqueueing =>
        rcases answer with _ | _ <;> trivial
      case settled => exact permitted.elim
  | exit =>
      cases phase <;> first | exact serves.elim | exact permitted.elim
  | _ => cases phase <;> exact serves.elim

/-- The operations of such a call. -/
theorem TaskCall.Serves.does
    (serves : call.Serves phase)
    (permitted : phase.permits call op) :
    call.Does op := by
  constructor
  · rintro id scheduleConfig rfl
    cases phase <;> simp [TaskPhase.permits] at permitted
    case beginning => cases call <;> simp [TaskCall.firstOp] at permitted
    case scheduling => cases call <;> first | exact serves.elim | cases serves.1
  · rintro id taskConfig rfl
    cases phase <;> simp [TaskPhase.permits] at permitted
    case beginning => cases call <;> simp [TaskCall.firstOp] at permitted
    case dispatching => cases call <;> first | exact serves.elim | cases serves.1
  · rintro id rfl
    rw [TaskPhase.activating_of_permits permitted] at serves
    cases call <;> first | exact serves.elim | cases serves.1
  · rintro runHandle rfl
    obtain ⟨rfl, taskId, rfl⟩ := TaskPhase.enqueueing_of_permits permitted
    exact congrArg some (show runHandle.taskId = taskId from serves).symm

/-- The run that such a call carries belongs to its task. -/
theorem TaskCall.Serves.carried_taskId
    {runHandle : TaskRunHandle}
    {stage : RunStage}
    (serves : call.Serves phase)
    (carried : call.carried phase = some (runHandle, stage)) :
    call.taskId? = some runHandle.taskId := by
  rcases TaskCall.carried_cases carried with ⟨rfl, _⟩ | ⟨notExecutor, registered, _⟩
  · rfl
  · cases phase with
    | unlocking taskId registration =>
        cases registration with
        | registered taskRun =>
            cases registered
            cases call <;> first | exact serves.elim | skip
            · exact congrArg some (show taskId = _ from serves).symm
            · exact (notExecutor _ rfl).elim
        | _ => cases registered
    | enqueueing own =>
        cases registered
        cases call <;> first | exact serves.elim | skip
        · exact congrArg some (show runHandle.taskId = _ from serves).symm
        · exact (notExecutor _ rfl).elim
    | _ => cases registered

end Serves

namespace TaskState

variable {config : TaskServerConfig}
variable {op : TaskOp}
variable {input : TaskInput}
variable {before after : TaskState}
variable {answer : Except AppError op.Result}
variable {taskId : Nat}

/-- Only a dispatch adds to the builds. -/
theorem builds_of_answered
    (answered : taskHost config op input before = some (answer, after))
    (notDispatched : ∀ id taskConfig, op ≠ .dispatchBuild id taskConfig) :
    after.builds = before.builds := by
  cases op with
  | insertTask | insertRun =>
      rcases TaskState.attempt_eq answered with
          ⟨_, _, _, _, rfl⟩ | ⟨_, _, _, rfl⟩ <;> rfl
  | deleteEnv | runEnv | getEnvChildren | dockerStop | dockerRemove
  | dockerWait | dockerInspectExitCode =>
      obtain ⟨docker, rfl⟩ := TaskState.command_eq answered
      rfl
  | buildEnv | schedulerSchedule | lockResource | readLog | readMetric =>
      simp only [taskHost] at answered
      split at answered <;> cases answered <;> rfl
  | dispatchBuild id taskConfig => exact (notDispatched id taskConfig rfl).elim
  | _ =>
      cases answered
      rfl

/-- No entry comes to be but by being scheduled. -/
theorem entries_of_answered
    (answered : taskHost config op input before = some (answer, after))
    (notScheduled : ∀ id scheduleConfig, op ≠ .schedulerSchedule id scheduleConfig)
    (absent : before.scheduler.entries taskId = none) :
    after.scheduler.entries taskId = none ∧
      after.scheduler.overwritten = before.scheduler.overwritten := by
  have updated
      {id : Nat}
      {entry : Option CronEntry}
      (bare : id = taskId → entry = none) :
      (before.scheduler.update id entry).entries taskId = none := by
    by_cases same : id = taskId
    · subst same
      simpa [CronScheduler.update] using bare rfl
    · simpa [CronScheduler.update, Function.update_of_ne (Ne.symm same)] using absent
  cases op with
  | schedulerSchedule id scheduleConfig => exact (notScheduled id scheduleConfig rfl).elim
  | schedulerStop id | schedulerStart id =>
      cases answered
      refine ⟨updated ?_, rfl⟩
      rintro rfl
      rw [absent]
      rfl
  | schedulerDelete id =>
      cases answered
      exact ⟨updated fun _ => rfl, rfl⟩
  | _ =>
      rw [(taskHost_keeps answered).scheduler rfl]
      exact ⟨absent, rfl⟩

end TaskState

namespace TaskView

/-- Nothing has been done for a task. -/
structure Untouched (view : TaskView) (taskId : Nat) : Prop where
  queue : ∀ runHandle ∈ view.shared.queue, runHandle.taskId ≠ taskId
  calls :
    ∀ pid call phase,
      view.progress pid = some ⟨call, phase⟩ → call.taskId? ≠ some taskId
  entry : view.shared.scheduler.entries taskId = none
  overwritten : ∀ entry ∈ view.shared.scheduler.overwritten, entry.1 ≠ taskId
  builds : ∀ build ∈ view.shared.builds, build.1 ≠ taskId

variable {config : TaskServerConfig}
variable {view : TaskView}
variable {pid : Nat}
variable {call : TaskCall}
variable {phase : TaskPhase}
variable {op : TaskOp}
variable {input : TaskInput}
variable {answer : Except AppError op.Result}
variable {shared : TaskState}
variable {taskId : Nat}

/-- A call that serves another task leaves the task untouched. -/
theorem Untouched.answered
    (untouched : view.Untouched taskId)
    (serves : call.Serves phase)
    (present : view.progress pid = some ⟨call, phase⟩)
    (permitted : phase.permits call op)
    (answered : taskHost config op input view.shared = some (answer, shared)) :
    TaskView.Untouched
      (view.place pid ⟨call, phase.advance call op answer⟩ shared) taskId := by
  have does := serves.does permitted
  have isOther := untouched.calls pid call phase present
  obtain ⟨absent, sameOverwritten⟩ :=
    TaskState.entries_of_answered answered does.schedules untouched.entry
  refine ⟨?_, ?_, absent, ?_, ?_⟩
  · intro runHandle queued
    change runHandle ∈ shared.queue at queued
    rcases queue_of_answered present permitted answered with
        sameQueue | ⟨own, isOp, grown, _⟩
    · exact untouched.queue runHandle (sameQueue ▸ queued)
    · rw [grown] at queued
      rcases List.mem_append.mp queued with old | isOwn
      · exact untouched.queue runHandle old
      · rw [List.mem_singleton.mp isOwn]
        rintro rfl
        exact isOther (does.enqueues own isOp)
  · intro other otherCall otherPhase found
    rcases Protocol.View.place_cases found with ⟨_, shape⟩ | ⟨_, earlier⟩
    · cases shape
      exact isOther
    · exact untouched.calls other otherCall otherPhase earlier
  · change ∀ entry ∈ shared.scheduler.overwritten, _
    rw [sameOverwritten]
    exact untouched.overwritten
  · change ∀ build ∈ shared.builds, _
    rw [TaskState.builds_of_answered answered does.dispatches]
    exact untouched.builds

/-- A call that begins is begun for what is there of another task. -/
theorem Untouched.begun
    (untouched : view.Untouched taskId)
    (notRequest : call.isClientRequest = false)
    (begun : beginTaskCall config call view.shared = some shared) :
    TaskView.Untouched (view.place pid ⟨call, taskProtocol.start call⟩ shared) taskId := by
  have isOther : call.taskId? ≠ some taskId := by
    cases call with
    | build id taskConfig =>
        simp only [beginTaskCall] at begun
        split at begun
        · rename_i dispatched
          exact fun same => untouched.builds _ dispatched (Option.some.inj same)
        · cases begun
    | callback id =>
        simp only [beginTaskCall] at begun
        split at begun
        · rename_i ticks
          rintro same
          cases Option.some.inj same
          rcases (Bool.or_eq_true _ _).mp ticks with running | overwritten
          · simp [CronScheduler.isRunning, untouched.entry] at running
          · obtain ⟨entry, member, isEntry⟩ := List.any_eq_true.mp overwritten
            exact untouched.overwritten entry member
              (beq_iff_eq.mp ((Bool.and_eq_true _ _).mp isEntry).1)
        · cases begun
    | executor runHandle =>
        cases begins_of_begun begun with
        | executor next =>
            refine fun same => untouched.queue runHandle ?_ (Option.some.inj same)
            rw [next]
            exact List.mem_cons_self
        | plain atOnce => cases atOnce
    | exit => rintro ⟨⟩
    | _ => cases notRequest
  have sameBuilds : ∀ build ∈ shared.builds, build ∈ view.shared.builds := by
    cases begins_of_begun begun with
    | build => exact fun build member => List.mem_of_mem_erase member
    | _ => exact fun build member => member
  refine ⟨?_, ?_, ?_, ?_, ?_⟩
  · exact fun runHandle queued => untouched.queue runHandle (mem_queue_of_begun begun queued)
  · intro other otherCall otherPhase found
    rcases Protocol.View.place_cases found with ⟨_, shape⟩ | ⟨_, earlier⟩
    · cases shape
      exact isOther
    · exact untouched.calls other otherCall otherPhase earlier
  · change shared.scheduler.entries taskId = none
    rw [(beginTaskCall_keeps begun).2.1]
    exact untouched.entry
  · change ∀ entry ∈ shared.scheduler.overwritten, _
    rw [(beginTaskCall_keeps begun).2.1]
    exact untouched.overwritten
  · exact fun build member => untouched.builds build (sameBuilds build member)

/-- A run in the hands of a call or the queue is none of an untouched task. -/
theorem Untouched.not_carried
    {runHandle : TaskRunHandle}
    (untouched : view.Untouched taskId)
    (serves :
      ∀ pid call phase, view.progress pid = some ⟨call, phase⟩ → call.Serves phase)
    (carried :
      runHandle ∈ view.shared.queue ∨ ∃ pid stage, view.Carries pid runHandle stage) :
    runHandle.taskId ≠ taskId := by
  rcases carried with queued | ⟨pid, stage, call, phase, present, carried⟩
  · exact untouched.queue runHandle queued
  · rintro rfl
    exact untouched.calls pid call phase present
      ((serves pid call phase present).carried_taskId carried)

end TaskView

end Prescott
