import Prescott.StoredSchedules

namespace Prescott

/-!
# The image of a task

A registration dispatches the build of its image and goes on, and all builds
of a task move one tag.  The image is the one of the stored config when nothing
is in progress, provided that registrations do not overlap and that no build
lands on top of a newer one.
-/

/-- A docker command that fails without effect. -/
def TaskInput.refuses : TaskInput → Bool
  | .refused _ => true
  | _ => false

/-- A docker command that does not fail. -/
def TaskInput.succeeds : TaskInput → Bool
  | .refused _ | .refusedLate _ => false
  | _ => true

theorem TaskInput.refuses_of_succeeds
    {input : TaskInput}
    (succeeds : input.succeeds = true) :
    input.refuses = false := by
  cases input with
  | refused reason => cases succeeds
  | _ => rfl

/-- Both configs describe one image. -/
def TaskConfigDto.BuildsLike (built taskConfig : TaskConfigDto) : Prop :=
  built.envInfo = taskConfig.envInfo ∧
    built.config.appConfig.steps = taskConfig.config.appConfig.steps

namespace TaskState

/-- The image of the task was built from this config. -/
def HasImageOf
    (state : TaskState)
    (id : Nat)
    (taskConfig : TaskConfigDto) :
    Prop :=
  ∃ image,
    state.docker.images (buildTaskIdentifier id) = some image ∧
      image.envInfo = taskConfig.envInfo ∧
      image.steps = taskConfig.config.appConfig.steps

variable {config : TaskServerConfig}
variable {op : TaskOp}
variable {input : TaskInput}
variable {before after : TaskState}
variable {answer : Except AppError op.Result}
variable {id : Nat}

/-- A docker command has failed without effect, or it has done what it can. -/
theorem command_cases
    {α : Type}
    {succeed : Option (α × Docker)}
    {answer : Except AppError α}
    (answered : before.command input succeed = some (answer, after)) :
    ((∃ reason, input = .refused reason ∧ answer = .error (.failure reason)) ∧
        after = before) ∨
      ∃ value docker,
        succeed = some (value, docker) ∧
          answer = .ok value ∧ after = { before with docker } := by
  unfold command at answered
  split at answered
  · cases answered
    exact .inl ⟨⟨_, rfl, rfl⟩, rfl⟩
  · split at answered
    · cases answered
      exact .inr ⟨_, _, rfl, rfl, rfl⟩
    · cases answered

/-- A docker command that is not refused resolves. -/
theorem resolved_of_command
    {α : Type}
    {succeed : Option (α × Docker)}
    {answer : Except AppError α}
    (answered : before.command input succeed = some (answer, after))
    (served : input.refuses = false) :
    ∃ value, answer = .ok value := by
  rcases command_cases answered with
      ⟨⟨_, rfl, _⟩, _⟩ | ⟨value, _, _, resolved, _⟩
  · cases served
  · exact ⟨value, resolved⟩

/-- What an operation does to images and containers. -/
inductive DockerStep
    (before : Docker) (input : TaskInput) : TaskOp → Docker → Prop where
  | same
      {op : TaskOp} :
      DockerStep before input op before
  | build
      {dto : BuildEnvDto} :
      DockerStep before input (.buildEnv dto)
        (before.build dto.imageTag dto.envInfo dto.steps)
  | removeImage
      {envId : String}
      {isForce : Bool} :
      DockerStep before input (.deleteEnv envId isForce)
        (before.removeImage envId)
  | run
      {envId name : String}
      {limitations : Option Limitations}
      {image : Image}
      (given : input = .container name)
      (isImage : before.images envId = some image)
      (fresh : before.containerOf name = none) :
      DockerStep before input (.runEnv envId limitations)
        (before.run image name)
  | exit
      {container : String}
      {timeout : Option Nat}
      {exitCode : Int} :
      DockerStep before input (.dockerStop container timeout)
        (before.exit container exitCode)
  | removeContainer
      {container : String}
      {isForce : Bool}
      (served : input.refuses = false) :
      DockerStep before input (.dockerRemove container isForce)
        (before.removeContainer container)

/-- An operation changes docker as it announces, or not at all. -/
theorem dockerStep_of_answered
    (answered : taskHost config op input before = some (answer, after)) :
    DockerStep before.docker input op after.docker := by
  cases op with
  | insertTask | insertRun =>
      rcases TaskState.attempt_eq answered with
          ⟨_, _, _, _, rfl⟩ | ⟨_, _, _, rfl⟩
      · exact .same
      · exact .same
  | buildEnv dto =>
      simp only [taskHost] at answered
      split at answered <;> cases answered
      · exact .same
      · exact .build
      · exact .build
  | deleteEnv =>
      rcases command_cases answered with ⟨_, rfl⟩ | ⟨_, docker, done, _, rfl⟩
      · exact .same
      · split at done
        · cases done
          exact .removeImage
        · cases done
  | runEnv =>
      rcases command_cases answered with ⟨_, rfl⟩ | ⟨_, docker, done, _, rfl⟩
      · exact .same
      · split at done
        · rename_i isImage
          split at done <;> cases done
          rename_i fresh
          exact .run rfl isImage (by simpa using fresh)
        · cases done
  | dockerRemove container isForce =>
      rcases command_cases answered with
          ⟨_, rfl⟩ | ⟨_, docker, done, resolved, rfl⟩
      · exact .same
      · have served : input.refuses = false := by
          cases input with
          | refused reason =>
              rw [resolved] at answered
              cases answered
          | _ => rfl
        split at done
        · split at done <;> cases done
          exact .removeContainer served
        · cases done
  | dockerStop =>
      rcases command_cases answered with ⟨_, rfl⟩ | ⟨_, docker, done, _, rfl⟩
      · exact .same
      · split at done
        · obtain ⟨_, _, shape⟩ := Option.map_eq_some_iff.mp done
          cases shape
          exact .exit
        · cases done
  | getEnvChildren | dockerWait =>
      rcases command_cases answered with ⟨_, rfl⟩ | ⟨_, docker, done, _, rfl⟩
      · exact .same
      · split at done
        · split at done <;> cases done
          exact .same
        · cases done
  | dockerInspectExitCode =>
      rcases command_cases answered with ⟨_, rfl⟩ | ⟨_, docker, done, _, rfl⟩
      · exact .same
      · obtain ⟨_, _, shape⟩ := Option.map_eq_some_iff.mp done
        cases shape
        exact .same
  | schedulerSchedule | lockResource | readLog | readMetric =>
      simp only [taskHost] at answered
      split at answered <;> cases answered <;> exact .same
  | _ =>
      cases answered
      exact .same

/-- An image stays where nothing is built in its place and it is not deleted. -/
theorem images_of_answered
    {tag : String}
    (answered : taskHost config op input before = some (answer, after))
    (notBuilt : ∀ dto, op = .buildEnv dto → dto.imageTag ≠ tag)
    (notDeleted : ∀ isForce, op ≠ .deleteEnv tag isForce) :
    after.docker.images tag = before.docker.images tag := by
  have step := dockerStep_of_answered answered
  generalize after.docker = docker at step ⊢
  cases step with
  | @build dto => exact Function.update_of_ne (Ne.symm (notBuilt dto rfl)) ..
  | @removeImage envId isForce =>
      have other : tag ≠ envId := by
        rintro rfl
        exact notDeleted isForce rfl
      exact Function.update_of_ne other ..
  | _ => rfl

/-- Only a dispatch adds to the builds that have not begun. -/
theorem mem_builds_of_answered
    {build : Nat × TaskConfigDto}
    (answered : taskHost config op input before = some (answer, after))
    (member : build ∈ before.builds) :
    build ∈ after.builds := by
  cases op with
  | insertTask | insertRun =>
      rcases TaskState.attempt_eq answered with
          ⟨_, _, _, _, rfl⟩ | ⟨_, _, _, rfl⟩
      · exact member
      · exact member
  | deleteEnv | runEnv | getEnvChildren | dockerStop | dockerRemove
  | dockerWait | dockerInspectExitCode =>
      obtain ⟨docker, rfl⟩ := TaskState.command_eq answered
      exact member
  | buildEnv | schedulerSchedule | lockResource | readLog | readMetric =>
      simp only [taskHost] at answered
      split at answered <;> cases answered <;> exact member
  | dispatchBuild =>
      cases answered
      exact List.mem_append_left _ member
  | _ =>
      cases answered
      exact member

/-- A running entry runs on where it is neither stopped nor replaced. -/
theorem isRunning_of_answered
    (answered : taskHost config op input before = some (answer, after))
    (notPlanned : op.plans ≠ some id)
    (notStopped : op ≠ .schedulerStop id)
    (running : before.scheduler.isRunning id = true) :
    after.scheduler.isRunning id = true := by
  cases op with
  | schedulerSchedule other scheduled =>
      have different : id ≠ other :=
        fun same => notPlanned (congrArg some same.symm)
      simp only [taskHost] at answered
      split at answered <;> cases answered
      · exact (CronScheduler.isRunning_scheduleTask_other different).trans
          running
      · exact running
  | schedulerDelete other =>
      have different : id ≠ other :=
        fun same => notPlanned (congrArg some same.symm)
      cases answered
      exact (CronScheduler.isRunning_deleteTask_other different).trans running
  | schedulerStop other =>
      have different : id ≠ other := by
        rintro rfl
        exact notStopped rfl
      cases answered
      exact (CronScheduler.isRunning_stop_other different).trans running
  | schedulerStart other =>
      cases answered
      by_cases same : id = other
      · subst same
        obtain ⟨entry, found, _⟩ := CronScheduler.isRunning_iff.mp running
        change (before.scheduler.start id).isRunning id = true
        rw [CronScheduler.isRunning_start_self]
        simp [CronScheduler.exists?, found]
      · exact (CronScheduler.isRunning_start_other same).trans running
  | _ =>
      rw [(taskHost_keeps answered).scheduler rfl]
      exact running

/-- A stored config was stored before, or it is the one of a new row. -/
theorem hasConfig_of_answered
    {taskConfig : TaskConfigDto}
    (answered : taskHost config op input before = some (answer, after))
    (notPlanned : op.plans ≠ some id)
    (stored : after.tables.HasConfig id taskConfig) :
    before.tables.HasConfig id taskConfig ∨
      ∃ data tables,
        op = .insertTask data ∧
          before.tables.insertTask data = .ok (id, tables) := by
  obtain ⟨task, member, rfl, rfl⟩ := stored
  cases op with
  | insertTask data =>
      rcases TaskState.attempt_eq answered with
          ⟨newId, _, inserted, _, rfl⟩ | ⟨_, _, _, rfl⟩
      · rcases (TaskTables.mem_insertTask inserted).mp member with old | rfl
        · exact .inl ⟨task, old, rfl, rfl⟩
        · obtain ⟨rfl, _⟩ := TaskTables.nextId_insertTask inserted
          exact .inr ⟨data, _, rfl, inserted⟩
      · exact .inl ⟨task, member, rfl, rfl⟩
  | updateTaskConfig other newConfig =>
      cases answered
      obtain ⟨old, oldMember, rfl⟩ := TaskTables.mem_setConfig.mp member
      split at notPlanned
      · rename_i isRow
        exact (notPlanned (congrArg some (beq_iff_eq.mp isRow).symm)).elim
      · rename_i notRow
        rw [if_neg notRow]
        exact .inl ⟨old, oldMember, rfl, rfl⟩
  | deleteTaskById other =>
      cases answered
      exact .inl ⟨task, (Table.mem_rows_deleteWhere.mp member).1, rfl, rfl⟩
  | setTaskActive other value =>
      cases answered
      obtain ⟨old, oldMember, rfl⟩ := TaskTables.mem_setActive.mp member
      exact .inl ⟨old, oldMember, by split <;> rfl, by split <;> rfl⟩
  | _ =>
      rw [(taskHost_keeps answered).tasks rfl] at member
      exact .inl ⟨task, member, rfl, rfl⟩

end TaskState

/-- The phases a configuring call goes through. -/
def TaskCall.Reaches : TaskCall → TaskPhase → Prop
  | .createTask _ _ _, .beginning | .createTask _ _ _, .inserting
  | .createTask _ _ _, .checkingEntry _ _ | .createTask _ _ _, .scheduling _ _
  | .createTask _ _ _, .dispatching _ _ => True
  | .updateTask _ _, .beginning | .updateTask _ _, .unregistering _ (some _)
  | .updateTask _ _, .clearing _ (some _) | .updateTask _ _, .checkingEntry _ _
  | .updateTask _ _, .scheduling _ _ | .updateTask _ _, .dispatching _ _
  | .updateTask _ _, .storing _ _ => True
  | .build _ _, .beginning => True
  | .build taskId _, .starting id => id = taskId
  | .createTask _ _ _, .settled _ | .updateTask _ _, .settled _
  | .build _ _, .settled _ | .exit _ _, .settled _ => True
  | _, _ => False

/-- The call creates or updates a task or builds its image. -/
def TaskCall.configures : TaskCall → Bool
  | .createTask _ _ _ | .updateTask _ _ | .build _ _ | .exit _ _ => true
  | _ => false

namespace TaskPhase

variable {call : TaskCall}
variable {phase : TaskPhase}
variable {id : Nat}

/-- An image is built by a build. -/
theorem building_of_permits
    {dto : BuildEnvDto}
    (permitted : phase.permits call (.buildEnv dto)) :
    ∃ taskId taskConfig,
      call = .build taskId taskConfig ∧
        phase = .beginning ∧ dto.imageTag = buildTaskIdentifier taskId := by
  cases phase <;> simp [permits] at permitted
  case beginning =>
    cases call <;> simp [TaskCall.firstOp] at permitted
    case build taskId taskConfig =>
      exact ⟨taskId, taskConfig, rfl, rfl, by rw [← permitted]⟩

/-- An image is deleted when its task is cleared or after its last run. -/
theorem deleting_of_permits
    {envId : String}
    {isForce : Bool}
    (permitted : phase.permits call (.deleteEnv envId isForce)) :
    (∃ taskId taskConfig,
      phase = .clearing taskId taskConfig ∧
        envId = buildTaskIdentifier taskId) ∨
      phase = .autoStopping := by
  cases phase <;> simp [permits] at permitted
  case beginning => cases call <;> simp [TaskCall.firstOp] at permitted
  case clearing taskId taskConfig =>
    exact .inl ⟨taskId, taskConfig, rfl, permitted.1⟩
  case autoStopping => exact .inr rfl

variable {op : TaskOp}
variable {answer : Except AppError op.Result}
variable {taskConfig : TaskConfigDto}

/-- A call that comes to a registration has its work still before it. -/
theorem ne_storing_of_enters
    (notPlanned : phase.plans ≠ some id)
    (permitted : phase.permits call op)
    (stores : phase.advance call op answer = .storing id taskConfig) :
    False := by
  have advances := advances_advance answer permitted
  generalize phase.advance call op answer = next at advances stores
  cases advances with
  | failed fails =>
      cases fails with
      | same => exact notPlanned (by rw [stores]; rfl)
      | _ => cases stores
  | present | dispatched =>
      cases call with
      | updateTask =>
          cases stores
          exact notPlanned rfl
      | _ => cases stores
  | _ => cases stores

/-- A call that has inserted a task goes on with its registration. -/
theorem plans_of_inserted
    {config : TaskServerConfig}
    {data : NewTask}
    {input : TaskInput}
    {before after : TaskState}
    {tables : TaskTables}
    {answer : Except AppError Nat}
    (permitted : phase.permits call (.insertTask data))
    (answered :
      taskHost config (.insertTask data) input before = some (answer, after))
    (inserted : before.tables.insertTask data = .ok (id, tables)) :
    (phase.advance call (.insertTask data) answer).plans = some id := by
  obtain ⟨_, _, _, rfl, _⟩ := inserting_of_permits permitted
  simp only [taskHost, inserted, TaskState.attempt] at answered
  cases answered
  rfl

end TaskPhase

/-- A configuring call stops no entry. -/
theorem TaskCall.Reaches.ne_stop
    {call : TaskCall}
    {phase : TaskPhase}
    {op : TaskOp}
    {id : Nat}
    (reaches : call.Reaches phase)
    (permitted : phase.permits call op) :
    op ≠ .schedulerStop id := by
  rintro rfl
  cases phase <;> simp [TaskPhase.permits] at permitted
  case beginning => cases call <;> simp [TaskCall.firstOp] at permitted
  all_goals cases call <;> exact reaches.elim

/-- A configuring call goes through its phases only. -/
theorem TaskCall.Reaches.advance
    {call : TaskCall}
    {phase : TaskPhase}
    {op : TaskOp}
    (reaches : call.Reaches phase)
    (permitted : phase.permits call op)
    (answer : Except AppError op.Result) :
    call.Reaches (phase.advance call op answer) := by
  cases call with
  | createTask groupId userId taskConfig =>
      cases phase <;> first | exact reaches.elim | skip
      case beginning =>
        cases permitted
        rcases answer with _ | _ | _ <;> trivial
      case inserting =>
        obtain ⟨_, _, _, _, rfl⟩ := permitted
        rcases answer with _ | _ <;> trivial
      case checkingEntry =>
        cases permitted
        rcases answer with _ | _ | _ <;> trivial
      case scheduling | dispatching =>
        cases permitted
        rcases answer with _ | _ <;> trivial
      case settled => exact permitted.elim
  | updateTask taskId localConfig =>
      cases phase <;> first | exact reaches.elim | skip
      case beginning =>
        cases permitted
        rcases answer with _ | _ | _ <;> trivial
      case checkingEntry =>
        cases permitted
        rcases answer with _ | _ | _ <;> trivial
      case scheduling | dispatching | storing =>
        cases permitted
        rcases answer with _ | _ <;> trivial
      case unregistering id taskConfig =>
        cases taskConfig with
        | none => exact reaches.elim
        | some taskConfig =>
            cases permitted
            rcases answer with _ | _ <;> trivial
      case clearing id taskConfig =>
        cases taskConfig with
        | none => exact reaches.elim
        | some taskConfig =>
            rcases permitted with rfl | ⟨_, rfl⟩ | rfl <;>
              rcases answer with _ | _ <;> trivial
      case settled => exact permitted.elim
  | build taskId taskConfig =>
      cases phase <;> first | exact reaches.elim | skip
      case beginning =>
        cases permitted
        rcases answer with _ | _
        · trivial
        · rfl
      case starting =>
        cases permitted
        rcases answer with _ | _ <;> trivial
      case settled => exact permitted.elim
  | exit =>
      cases phase <;> first | exact reaches.elim | exact permitted.elim
  | _ => exact reaches.elim

namespace TaskView

/-- The config that the task is to have: the one of its update, or the stored one. -/
def Newest (view : TaskView) (id : Nat) (taskConfig : TaskConfigDto) : Prop :=
  (∃ pid, view.InPhase pid (.storing id taskConfig)) ∨
    ((∀ pid phase, view.InPhase pid phase → phase.plans ≠ some id) ∧
      view.shared.tables.HasConfig id taskConfig)

/-- A build of the image is still to land, by another call than `pid`. -/
def AwaitsBuild
    (view : TaskView)
    (pid id : Nat)
    (taskConfig : TaskConfigDto) :
    Prop :=
  ∃ built,
    built.BuildsLike taskConfig ∧
      ((id, built) ∈ view.shared.builds ∨
        ∃ other,
          other ≠ pid ∧
            view.progress other = some ⟨.build id built, .beginning⟩)

/--
The condition on a turn: tasks are created, updated and built, one registration
of a task at a time, with valid expressions and docker commands that succeed;
and a build of another image than the newest one lands only while a build of
the newest one is still to land.
-/
def BuildsInOrder
    (config : TaskServerConfig)
    (view : TaskView)
    (turn : Turn TaskCall TaskInput) :
    Prop :=
  view.OneByOne ∧
    match turn with
    | .invoke _ call => call.configures = true
    | .resume pid input =>
        input.succeeds = true ∧
          (∀ id taskConfig,
            view.InPhase pid (.scheduling id taskConfig) →
            taskConfig.Valid config) ∧
          ∀ id built taskConfig,
            view.progress pid = some ⟨.build id built, .beginning⟩ →
            view.Newest id taskConfig →
            built.BuildsLike taskConfig ∨ view.AwaitsBuild pid id taskConfig

/--
The task has an entry, and its image is there and the entry running, or what is
missing is still to come from a build.
-/
def Provides (view : TaskView) (id : Nat) (taskConfig : TaskConfigDto) :
    Prop :=
  (view.shared.scheduler.scheduleOf id).isSome = true ∧
    ((∃ built,
        built.BuildsLike taskConfig ∧
          ((id, built) ∈ view.shared.builds ∨
            ∃ pid, view.progress pid = some ⟨.build id built, .beginning⟩)) ∨
      (view.shared.HasImageOf id taskConfig ∧
        (view.shared.scheduler.isRunning id = true ∨
          ∃ pid built, view.progress pid = some ⟨.build id built, .starting id⟩)))

/-- What holds while tasks are configured. -/
structure Configured (view : TaskView) : Prop where
  reaches :
    ∀ pid call phase,
      view.progress pid = some ⟨call, phase⟩ → call.Reaches phase
  registered : view.Registered
  provided :
    ∀ id taskConfig, view.Newest id taskConfig → view.Provides id taskConfig

variable {config : TaskServerConfig}
variable {view : TaskView}
variable {pid id : Nat}
variable {call : TaskCall}
variable {phase : TaskPhase}
variable {op : TaskOp}
variable {input : TaskInput}
variable {answer : Except AppError op.Result}
variable {shared : TaskState}
variable {taskConfig : TaskConfigDto}
variable {progress : taskProtocol.Progress}

/-- While a call works on a registration, the newest config is its own. -/
theorem Newest.storing_of_plans
    (newest : view.Newest id taskConfig)
    (oneByOne : view.OneByOne)
    (inPhase : view.InPhase pid phase)
    (planned : phase.plans = some id) :
    phase = .storing id taskConfig := by
  rcases newest with ⟨other, storing⟩ | ⟨idle, _⟩
  · have same := oneByOne pid other _ _ id inPhase storing planned rfl
    subst same
    obtain ⟨_, present⟩ := inPhase
    exact (storing.eq present).symm
  · exact absurd planned (idle pid phase inPhase)

/-- What is provided stays so while neither entry nor image is touched. -/
theorem Provides.place
    (provides : view.Provides id taskConfig)
    (sameSchedule :
      shared.scheduler.scheduleOf id = view.shared.scheduler.scheduleOf id)
    (running :
      view.shared.scheduler.isRunning id = true →
      shared.scheduler.isRunning id = true)
    (sameImage :
      shared.docker.images (buildTaskIdentifier id) =
        view.shared.docker.images (buildTaskIdentifier id))
    (builds :
      ∀ built, (id, built) ∈ view.shared.builds → (id, built) ∈ shared.builds)
    (notBuild :
      ∀ built phase, view.progress pid ≠ some ⟨.build id built, phase⟩) :
    TaskView.Provides (view.place pid progress shared) id taskConfig := by
  have stays
      {other : Nat}
      {built : TaskConfigDto}
      {phase : TaskPhase}
      (found : view.progress other = some ⟨.build id built, phase⟩) :
      (view.place pid progress shared).progress other =
        some ⟨.build id built, phase⟩ := by
    have different : other ≠ pid := by
      rintro rfl
      exact notBuild built phase found
    exact (Function.update_of_ne different ..).trans found
  obtain ⟨hasEntry, awaits | ⟨hasImage, runs⟩⟩ := provides
  · refine ⟨by rw [← hasEntry]; exact congrArg _ sameSchedule, .inl ?_⟩
    obtain ⟨built, alike, waiting | ⟨other, found⟩⟩ := awaits
    · exact ⟨built, alike, .inl (builds built waiting)⟩
    · exact ⟨built, alike, .inr ⟨other, stays found⟩⟩
  · refine ⟨by rw [← hasEntry]; exact congrArg _ sameSchedule, .inr ⟨?_, ?_⟩⟩
    · obtain ⟨image, tagged, sameEnv, sameSteps⟩ := hasImage
      exact ⟨image, sameImage.trans tagged, sameEnv, sameSteps⟩
    · rcases runs with isRunning | ⟨other, built, found⟩
      · exact .inl (running isRunning)
      · exact .inr ⟨other, built, stays found⟩

/-- A build that begins is no longer in the list, but in progress. -/
theorem Provides.place_begun
    {taskId : Nat}
    {begun : TaskConfigDto}
    (provides : view.Provides id taskConfig)
    (fresh : view.progress pid = none) :
    TaskView.Provides
      (view.place pid ⟨.build taskId begun, .beginning⟩
        { view.shared with
          builds := view.shared.builds.erase (taskId, begun) })
      id taskConfig := by
  have stays
      {other : Nat}
      {found : taskProtocol.Progress}
      (present : view.progress other = some found) :
      Function.update view.progress pid (some ⟨.build taskId begun, .beginning⟩)
          other =
        some found := by
    have different : other ≠ pid := by
      rintro rfl
      rw [fresh] at present
      cases present
    exact (Function.update_of_ne different ..).trans present
  obtain ⟨hasEntry, awaits | ⟨hasImage, runs⟩⟩ := provides
  · refine ⟨hasEntry, .inl ?_⟩
    obtain ⟨built, alike, waiting | ⟨other, found⟩⟩ := awaits
    · by_cases same : (id, built) = (taskId, begun)
      · cases same
        exact ⟨begun, alike, .inr ⟨pid, Function.update_self ..⟩⟩
      · exact ⟨built, alike, .inl ((List.mem_erase_of_ne same).mpr waiting)⟩
    · exact ⟨built, alike, .inr ⟨other, stays found⟩⟩
  · refine ⟨hasEntry, .inr ⟨hasImage, runs.imp_right ?_⟩⟩
    rintro ⟨other, built, found⟩
    exact ⟨other, built, stays found⟩

/-- Away from the call that moves, the newest config is the same as before. -/
theorem Newest.of_place
    (newest : TaskView.Newest (view.place pid progress shared) id taskConfig)
    (notPlanned : progress.phase.plans ≠ some id)
    (wasNotPlanned :
      ∀ phase, view.InPhase pid phase → phase.plans ≠ some id)
    (stored :
      shared.tables.HasConfig id taskConfig →
      view.shared.tables.HasConfig id taskConfig) :
    view.Newest id taskConfig := by
  rcases newest with ⟨other, storing⟩ | ⟨idle, isStored⟩
  · rcases storing.of_place with ⟨_, same⟩ | ⟨_, earlier⟩
    · rw [← same] at notPlanned
      exact (notPlanned rfl).elim
    · exact .inl ⟨other, earlier⟩
  · refine .inr ⟨fun other phase inPhase => ?_, stored isStored⟩
    by_cases same : other = pid
    · subst same
      exact wasNotPlanned phase inPhase
    · exact idle other phase (inPhase.place same)

/-- A build that lands leaves the image of the newest config, or one to come. -/
theorem Configured.provides_landed
    {built : TaskConfigDto}
    (configured : view.Configured)
    (inOrder : view.BuildsInOrder config (.resume pid input))
    (present : view.progress pid = some ⟨.build id built, .beginning⟩)
    (permitted : TaskPhase.beginning.permits (.build id built) op)
    (answered :
      taskHost config op input view.shared = some (answer, shared))
    (newest : view.Newest id taskConfig) :
    TaskView.Provides
      (view.place pid
        ⟨.build id built,
          TaskPhase.beginning.advance (.build id built) op answer⟩ shared)
      id taskConfig := by
  obtain ⟨_, succeeds, _, lands⟩ := inOrder
  obtain ⟨hasEntry, _⟩ := configured.provided id taskConfig newest
  cases permitted
  simp only [taskHost] at answered
  have shape :
      answer = .ok () ∧
        shared =
          { view.shared with
            docker :=
              view.shared.docker.build (buildTaskIdentifier id) built.envInfo
                built.config.appConfig.steps } := by
    split at answered
    · cases succeeds
    · cases succeeds
    · cases answered
      exact ⟨rfl, rfl⟩
  obtain ⟨rfl, rfl⟩ := shape
  refine ⟨hasEntry, ?_⟩
  rcases lands id built taskConfig present newest with
      ⟨sameEnv, sameSteps⟩ | ⟨later, alike, waiting | ⟨other, ne, found⟩⟩
  · refine .inr ⟨⟨_, Function.update_self .., sameEnv, sameSteps⟩, .inr ?_⟩
    exact ⟨pid, built, Function.update_self ..⟩
  · exact .inl ⟨later, alike, .inl waiting⟩
  · exact .inl ⟨later, alike, .inr
      ⟨other, (Function.update_of_ne ne ..).trans found⟩⟩

/-- A build that starts the entry leaves it running. -/
theorem Configured.provides_started
    {built : TaskConfigDto}
    (configured : view.Configured)
    (present : view.progress pid = some ⟨.build id built, .starting id⟩)
    (permitted : (TaskPhase.starting id).permits (.build id built) op)
    (answered :
      taskHost config op input view.shared = some (answer, shared))
    (newest : view.Newest id taskConfig) :
    TaskView.Provides
      (view.place pid
        ⟨.build id built,
          (TaskPhase.starting id).advance (.build id built) op answer⟩ shared)
      id taskConfig := by
  obtain ⟨hasEntry, provides⟩ := configured.provided id taskConfig newest
  cases permitted
  cases answered
  refine ⟨?_, ?_⟩
  · change ((view.shared.scheduler.start id).scheduleOf id).isSome = true
    rw [CronScheduler.scheduleOf_start]
    exact hasEntry
  · rcases provides with
        ⟨later, alike, waiting | ⟨other, found⟩⟩ | ⟨hasImage, _⟩
    · exact .inl ⟨later, alike, .inl waiting⟩
    · have different : other ≠ pid := by
        rintro rfl
        rw [present] at found
        cases found
      exact .inl ⟨later, alike, .inr
        ⟨other, (Function.update_of_ne different ..).trans found⟩⟩
    · refine .inr ⟨hasImage, .inl ?_⟩
      change (view.shared.scheduler.start id).isRunning id = true
      rw [CronScheduler.isRunning_start_self,
        CronScheduler.exists_iff_scheduleOf]
      exact hasEntry

/-- A call that works on another registration, or on none. -/
theorem Configured.provides_elsewhere
    (configured : view.Configured)
    (inOrder : view.BuildsInOrder config (.resume pid input))
    (present : view.progress pid = some ⟨call, phase⟩)
    (permitted : phase.permits call op)
    (answered :
      taskHost config op input view.shared = some (answer, shared))
    (wasNotPlanned : phase.plans ≠ some id)
    (newest : view.Newest id taskConfig) :
    TaskView.Provides
      (view.place pid ⟨call, phase.advance call op answer⟩ shared) id
      taskConfig := by
  have reaches := configured.reaches pid call phase present
  by_cases isBuild : ∃ built, call = .build id built
  · obtain ⟨built, rfl⟩ := isBuild
    cases phase <;> first | exact reaches.elim | skip
    case beginning =>
      exact configured.provides_landed inOrder present permitted answered newest
    case starting taskId =>
      cases reaches
      exact configured.provides_started present permitted answered newest
    case settled => exact permitted.elim
  · have notPlanned : op.plans ≠ some id := fun planned =>
      wasNotPlanned (TaskPhase.plans_of_permits permitted planned)
    refine (configured.provided id taskConfig newest).place ?_ ?_ ?_ ?_ ?_
    · exact (TaskState.SameFor.of_answered answered notPlanned).scheduleOf
    · exact TaskState.isRunning_of_answered answered notPlanned
        (reaches.ne_stop permitted)
    · refine TaskState.images_of_answered answered ?_ ?_
      · rintro dto rfl sameTag
        obtain ⟨taskId, built, rfl, _, isTag⟩ :=
          TaskPhase.building_of_permits permitted
        have same := eq_of_buildTaskIdentifier_eq (isTag.symm.trans sameTag)
        exact isBuild ⟨built, by rw [same]⟩
      · rintro isForce rfl
        rcases TaskPhase.deleting_of_permits permitted with
            ⟨taskId, newConfig, rfl, isTag⟩ | rfl
        · exact wasNotPlanned
            (congrArg some (eq_of_buildTaskIdentifier_eq isTag).symm)
        · cases call <;> exact reaches.elim
    · exact fun built => TaskState.mem_builds_of_answered answered
    · intro built otherPhase found
      rw [present] at found
      cases found
      exact isBuild ⟨built, rfl⟩

/-- The config that a registration leaves behind is the newest one. -/
theorem Newest.eq_of_settled
    {stored : TaskConfigDto}
    (newest :
      TaskView.Newest (view.place pid ⟨call, .settled true⟩ shared) id
        taskConfig)
    (oneByOne : view.OneByOne)
    (present : view.progress pid = some ⟨call, phase⟩)
    (planned : phase.plans = some id)
    (isStored : shared.tables.HasConfig id stored) :
    taskConfig = stored := by
  rcases newest with ⟨other, storing⟩ | ⟨_, newestStored⟩
  · rcases storing.of_place with ⟨_, same⟩ | ⟨different, earlier⟩
    · cases same
    · exact absurd
        (oneByOne other pid _ _ id earlier ⟨call, present⟩ rfl planned)
        different
  · exact TaskTables.HasConfig.eq newestStored isStored

/-- A registration that dispatches its build provides for its task. -/
theorem provides_dispatched
    {built : TaskConfigDto}
    {answer : Except AppError Unit}
    (carries :
      view.shared.scheduler.scheduleOf id = some built.config.scheduleConfig)
    (answered :
      taskHost config (.dispatchBuild id built) input view.shared =
        some (answer, shared)) :
    TaskView.Provides (view.place pid progress shared) id built := by
  cases answered
  refine ⟨?_, .inl ⟨built, ⟨rfl, rfl⟩, .inl ?_⟩⟩
  · change (view.shared.scheduler.scheduleOf id).isSome = true
    rw [carries]
    rfl
  · exact List.mem_append_right _ (List.mem_singleton.mpr rfl)

/-- The call that works on the registration of the task. -/
theorem Configured.provides_planned
    (configured : view.Configured)
    (inOrder : view.BuildsInOrder config (.resume pid input))
    (present : view.progress pid = some ⟨call, phase⟩)
    (permitted : phase.permits call op)
    (answered :
      taskHost config op input view.shared = some (answer, shared))
    (planned : phase.plans = some id)
    (oneAfter :
      TaskView.OneByOne
        (view.place pid ⟨call, phase.advance call op answer⟩ shared))
    (newest :
      TaskView.Newest
        (view.place pid ⟨call, phase.advance call op answer⟩ shared) id
        taskConfig) :
    TaskView.Provides
      (view.place pid ⟨call, phase.advance call op answer⟩ shared) id
      taskConfig := by
  obtain ⟨oneByOne, succeeds, valid, _⟩ := inOrder
  have served := TaskInput.refuses_of_succeeds succeeds
  have reaches := configured.reaches pid call phase present
  have prepared :=
    configured.registered.working pid call phase id present planned
  -- as long as the call goes on with the registration, it is about to store it
  have goesOn
      {next : TaskPhase}
      (same : phase.advance call op answer = next)
      (plans : next.plans = some id) :
      next = .storing id taskConfig := by
    subst same
    exact newest.storing_of_plans oneAfter Protocol.View.inPhase_place plans
  cases phase with
  | checkingEntry taskId newConfig =>
      cases planned
      obtain ⟨_, _, _, absent | rfl⟩ := prepared
      · have noEntry : view.shared.scheduler.exists? id = false := by
          rw [CronScheduler.exists_iff_scheduleOf, absent]
          rfl
        cases permitted
        cases answered
        rw [noEntry] at goesOn
        cases goesOn rfl rfl
      · exact reaches.elim
  | scheduling taskId newConfig =>
      cases planned
      cases permitted
      simp only [taskHost] at answered
      split at answered
      · cases answered
        cases goesOn rfl rfl
      · rename_i invalid
        exact (invalid (valid id newConfig ⟨call, present⟩)).elim
  | dispatching taskId newConfig =>
      cases planned
      obtain ⟨_, stored, carries⟩ := prepared
      cases permitted
      have isNewest : taskConfig = newConfig := by
        cases answered
        cases call <;> first | exact reaches.elim | skip
        case createTask =>
          refine newest.eq_of_settled oneByOne present rfl ?_
          refine stored.resolve_right ?_
          rintro ⟨_, isUpdate⟩
          cases isUpdate
        case updateTask =>
          cases goesOn rfl rfl
          rfl
      subst isNewest
      exact provides_dispatched carries answered
  | storing taskId newConfig =>
      cases planned
      obtain ⟨has, _⟩ := prepared
      cases permitted
      cases answered
      have isNewest :=
        newest.eq_of_settled oneByOne present rfl (.of_setConfig has)
      subst isNewest
      refine (configured.provided id taskConfig (.inl ⟨pid, call, present⟩)).place
        rfl (fun running => running) rfl (fun _ member => member) ?_
      intro built phase found
      rw [present] at found
      cases found
      exact reaches.elim
  | unregistering taskId newConfig =>
      cases planned
      cases permitted
      cases answered
      cases goesOn rfl rfl
  | clearing taskId newConfig =>
      cases planned
      cases newConfig with
      | none => cases call <;> exact reaches.elim
      | some newConfig =>
          rcases permitted with rfl | ⟨_, rfl⟩ | rfl
          · obtain ⟨_, rfl⟩ := TaskState.resolved_of_command answered served
            cases goesOn rfl rfl
          · cases goesOn rfl rfl
          · simp only [taskHost] at answered
            obtain ⟨_, rfl⟩ := TaskState.resolved_of_command answered served
            cases goesOn rfl rfl
  | flushing | deletingRow => cases call <;> exact reaches.elim
  | _ => cases planned

/-- A move in which an operation is answered. -/
theorem Configured.answered
    (configured : view.Configured)
    (inOrder : view.BuildsInOrder config (.resume pid input))
    (present : view.progress pid = some ⟨call, phase⟩)
    (permitted : phase.permits call op)
    (answered :
      taskHost config op input view.shared = some (answer, shared))
    (oneAfter :
      TaskView.OneByOne
        (view.place pid ⟨call, phase.advance call op answer⟩ shared)) :
    TaskView.Configured
      (view.place pid ⟨call, phase.advance call op answer⟩ shared) := by
  constructor
  · intro other otherCall otherPhase found
    rcases Protocol.View.place_cases found with ⟨_, shape⟩ | ⟨_, earlier⟩
    · cases shape
      exact (configured.reaches pid call phase present).advance permitted answer
    · exact configured.reaches other otherCall otherPhase earlier
  · exact configured.registered.answered inOrder.1 present permitted answered
      oneAfter
  · intro id taskConfig newest
    by_cases planned : phase.plans = some id
    · exact configured.provides_planned inOrder present permitted answered
        planned oneAfter newest
    · by_cases plans : (phase.advance call op answer).plans = some id
      · -- a call that comes to the registration is not about to store it
        have stores :=
          newest.storing_of_plans oneAfter Protocol.View.inPhase_place plans
        exact (TaskPhase.ne_storing_of_enters planned permitted stores).elim
      · have notPlanned : op.plans ≠ some id := fun isPlan =>
          planned (TaskPhase.plans_of_permits permitted isPlan)
        have wasNewest : view.Newest id taskConfig := by
          refine newest.of_place plans (fun other inPhase => ?_) fun stored => ?_
          · rw [inPhase.eq present]
            exact planned
          · rcases TaskState.hasConfig_of_answered answered notPlanned stored
              with before | ⟨data, tables, rfl, inserted⟩
            · exact before
            · exact (plans (TaskPhase.plans_of_inserted permitted answered
                inserted)).elim
        exact configured.provides_elsewhere inOrder present permitted answered
          planned wasNewest

/-- A build that begins is still to land. -/
theorem Configured.begun
    (configured : view.Configured)
    (inOrder : view.BuildsInOrder config (.invoke pid call))
    (fresh : view.progress pid = none)
    (begun : beginTaskCall config call view.shared = some shared) :
    TaskView.Configured
      (view.place pid ⟨call, taskProtocol.start call⟩ shared) := by
  obtain ⟨sameTables, sameScheduler, _⟩ := beginTaskCall_keeps begun
  have configures : call.configures = true := inOrder.2
  constructor
  · intro other otherCall otherPhase found
    rcases Protocol.View.place_cases found with ⟨_, shape⟩ | ⟨_, earlier⟩
    · cases shape
      cases call <;> trivial
    · exact configured.reaches other otherCall otherPhase earlier
  · exact configured.registered.begun fresh begun
  · intro id taskConfig newest
    have wasNewest : view.Newest id taskConfig := by
      refine newest.of_place ?_ (fun phase inPhase => ?_) fun stored => ?_
      · cases call <;> nofun
      · obtain ⟨_, present⟩ := inPhase
        rw [fresh] at present
        cases present
      · rw [← sameTables]
        exact stored
    have provides := configured.provided id taskConfig wasNewest
    have unmoved
        {after : TaskState}
        (sameScheduler : after.scheduler = view.shared.scheduler)
        (sameImages : after.docker.images = view.shared.docker.images)
        (sameBuilds : after.builds = view.shared.builds) :
        TaskView.Provides
          (view.place pid ⟨call, taskProtocol.start call⟩ after) id
          taskConfig := by
      refine provides.place (by rw [sameScheduler]) ?_
        (by rw [sameImages]) ?_ ?_
      · rw [sameScheduler]
        exact fun running => running
      · rw [sameBuilds]
        exact fun _ member => member
      · intro built phase present
        rw [fresh] at present
        cases present
    cases begins_of_begun begun with
    | build => exact provides.place_begun fresh
    | executor | exit | plain => exact unmoved rfl rfl rfl

/-- Every move within the condition keeps the tasks configured. -/
theorem Configured.step
    {before after : TaskView}
    {turn : Turn TaskCall TaskInput}
    (configured : before.Configured)
    (inOrder : before.BuildsInOrder config turn)
    (oneAfter : after.OneByOne)
    (moves :
      Protocol.Moves (taskServices config) taskProtocol before turn after) :
    after.Configured := by
  cases moves with
  | invoke fresh begun => exact configured.begun inOrder fresh begun
  | resume present permitted answered =>
      exact configured.answered inOrder present permitted answered oneAfter

theorem Configured.initially :
    TaskView.Configured (.initial taskProtocol .initial) := by
  constructor
  · intro pid call phase present
    cases present
  · exact .initially
  · rintro id taskConfig (⟨pid, _, present⟩ | ⟨_, _, member, _⟩)
    · cases present
    · cases member

end TaskView

/--
In every interleaving of creations, updates and builds in which registrations
of one task do not overlap, expressions are valid, docker commands succeed, and
no build lands on top of a newer one: when nothing is in progress, the image of
every task was built from its stored config, and its running entry carries the
stored schedule.
-/
theorem image_and_schedule_stored
    (config : TaskServerConfig)
    (turns : List (Turn TaskCall TaskInput))
    (final : Interleaving TaskState taskProtocol)
    (run :
      Run
        (Interleaving.Step (taskServices config)
          (TaskView.BuildsInOrder config))
        (.initial taskProtocol .initial) turns final)
    (quiescent : Quiescent final)
    (task : Task)
    (member : task ∈ final.shared.tables.tasks.rows) :
    final.shared.HasImageOf task.id task.config ∧
      ∃ entry,
        final.shared.scheduler.entries task.id = some entry ∧
          entry.running = true ∧
          entry.scheduleConfig = task.config.config.scheduleConfig := by
  obtain ⟨moves, conforming⟩ :=
    Interleaving.moves_of_run TaskPhase.conforms_taskBody run
  have idle
      (pid : Nat)
      (phase : TaskPhase)
      (id : Nat)
      (inPhase : final.view.InPhase pid phase) :
      phase.plans ≠ some id := by
    obtain ⟨_, rfl⟩ := quiescent.settled conforming inPhase
    nofun
  have inProgress
      (pid : Nat)
      (call : TaskCall)
      (phase : TaskPhase)
      (present : final.view.progress pid = some ⟨call, phase⟩) :
      ∃ resolved, phase = .settled resolved :=
    quiescent.settled conforming ⟨call, present⟩
  have configured :=
    moves.invariant (fun view => TaskView.OneByOne view → view.Configured)
      (fun before _ after configured taken one =>
        (configured taken.1.1).step taken.1 one taken.2)
      fun _ => TaskView.Configured.initially
  have oneByOne : TaskView.OneByOne final.view := by
    intro pid other phase otherPhase id inPhase _ planned _
    exact (idle pid phase id inPhase planned).elim
  have stored : final.shared.tables.HasConfig task.id task.config :=
    ⟨task, member, rfl, rfl⟩
  obtain ⟨_, ⟨built, _, waiting | ⟨pid, present⟩⟩ | ⟨hasImage, runs⟩⟩ :=
    (configured oneByOne).provided task.id task.config
      (.inr ⟨fun pid phase => idle pid phase task.id, stored⟩)
  · rw [show final.view.shared.builds = [] from quiescent.2] at waiting
    cases waiting
  · obtain ⟨_, shape⟩ := inProgress pid _ _ present
    cases shape
  · refine ⟨hasImage, ?_⟩
    rcases runs with running | ⟨pid, built, present⟩
    · obtain ⟨entry, found, isRunning⟩ :=
        CronScheduler.isRunning_iff.mp running
      obtain ⟨taskConfig, agrees, sameSchedule⟩ :=
        (configured oneByOne).registered.idle task.id
          (fun pid phase => idle pid phase task.id) _
          (CronScheduler.scheduleOf_of_entry found)
      rw [TaskTables.HasConfig.eq stored agrees]
      exact ⟨entry, found, isRunning, sameSchedule.symm⟩
    · obtain ⟨_, shape⟩ := inProgress pid _ _ present
      cases shape

instance
    (built taskConfig : TaskConfigDto) :
    Decidable (built.BuildsLike taskConfig) :=
  inferInstanceAs (Decidable (_ ∧ _))

/-- The configs that the task may be to have, among the calls below a bound. -/
def newestBelow (bound : Nat) (view : TaskView) (id : Nat) :
    List TaskConfigDto :=
  ((List.range bound).filterMap fun pid =>
    match view.progress pid with
    | some ⟨_, .storing taskId taskConfig⟩ =>
        if taskId = id then some taskConfig else none
    | _ => none) ++
    (view.shared.tables.tasks.rows.filter fun task => task.id == id).map
      Task.config

/-- A build of the image by a call below a bound other than `pid` is to land. -/
def awaitsBuildBelow
    (bound : Nat)
    (view : TaskView)
    (pid id : Nat)
    (taskConfig : TaskConfigDto) :
    Bool :=
  (List.range bound).any fun other =>
    match view.progress other with
    | some ⟨.build taskId built, .beginning⟩ =>
        other != pid && taskId == id && decide (built.BuildsLike taskConfig)
    | _ => false

/-- A check for configuring calls whose builds land in order. -/
def buildsInOrderBelow (bound : Nat) (config : TaskServerConfig)
    (view : TaskView) (turn : Turn TaskCall TaskInput) : Bool :=
  oneByOneBelow bound view &&
    match turn with
    | .invoke _ call => call.configures
    | .resume pid input =>
        input.succeeds &&
          match view.progress pid with
          | some ⟨_, .scheduling _ taskConfig⟩ =>
              config.isValidCron taskConfig.config.scheduleConfig
          | some ⟨.build id built, .beginning⟩ =>
              (newestBelow bound view id).all fun taskConfig =>
                decide (built.BuildsLike taskConfig) ||
                  awaitsBuildBelow bound view pid id taskConfig
          | _ => true

/-- The newest config is among those that are looked at. -/
theorem mem_newestBelow
    {config : Interleaving TaskState taskProtocol}
    {bound id : Nat}
    {taskConfig : TaskConfigDto}
    (below : config.Below bound)
    (newest : TaskView.Newest config.view id taskConfig) :
    taskConfig ∈ newestBelow bound config.view id := by
  rcases newest with ⟨pid, _, present⟩ | ⟨_, task, member, sameId, rfl⟩
  · refine List.mem_append_left _ (List.mem_filterMap.mpr
      ⟨pid, below.mem_range present, ?_⟩)
    simp [present]
  · exact List.mem_append_right _ (List.mem_map_of_mem
      (List.mem_filter.mpr ⟨member, beq_iff_eq.mpr sameId⟩))

/-- A build that is found to be awaited is awaited. -/
theorem awaitsBuild_of_below
    {bound pid id : Nat}
    {view : TaskView}
    {taskConfig : TaskConfigDto}
    (found : awaitsBuildBelow bound view pid id taskConfig = true) :
    view.AwaitsBuild pid id taskConfig := by
  obtain ⟨other, _, passed⟩ := List.any_eq_true.mp found
  split at passed
  · rename_i taskId built present
    simp only [Bool.and_eq_true, bne_iff_ne, beq_iff_eq, decide_eq_true_eq]
      at passed
    obtain ⟨⟨different, rfl⟩, alike⟩ := passed
    exact ⟨built, alike, .inr ⟨other, different, present⟩⟩
  · cases passed

theorem buildsInOrder_of_below
    {server : TaskServerConfig}
    {config : Interleaving TaskState taskProtocol}
    {bound : Nat}
    (below : config.Below bound)
    (turn : Turn TaskCall TaskInput)
    (passed : buildsInOrderBelow bound server config.view turn = true) :
    TaskView.BuildsInOrder server config.view turn := by
  obtain ⟨oneByOne, passed⟩ := (Bool.and_eq_true _ _).mp passed
  refine ⟨oneByOne_of_below below oneByOne, ?_⟩
  cases turn with
  | invoke pid call => exact passed
  | resume pid input =>
      obtain ⟨succeeds, passed⟩ := (Bool.and_eq_true _ _).mp passed
      refine ⟨succeeds, ?_, ?_⟩
      · rintro id taskConfig ⟨call, present⟩
        simp only [present] at passed
        exact passed
      · intro id built taskConfig present newest
        simp only [present] at passed
        have checked :=
          List.all_eq_true.mp passed taskConfig (mem_newestBelow below newest)
        rcases (Bool.or_eq_true _ _).mp checked with alike | awaited
        · exact .inl (of_decide_eq_true alike)
        · exact .inr (awaitsBuild_of_below awaited)

/-- Another schedule with other steps. -/
def hourly : LocalTaskConfig where
  scheduleConfig := "0 * * * *"
  appConfig := { steps := [{ name := "report", script := "make report" }] }

/-- The task is updated while its first build is in progress. -/
def updateTurns : List (Turn TaskCall TaskInput) :=
  [.invoke 2 (.updateTask 1 hourly), .resume 2 .done, .resume 2 .done,
    .resume 2 (.children []), .resume 2 .done, .resume 2 .done, .resume 2 .done,
    .resume 2 .done, .resume 2 .done,
    .invoke 3 (.build 1 { minutely with config := hourly })]

/-- The second build lands and starts the entry. -/
def secondBuildTurns : List (Turn TaskCall TaskInput) :=
  [.resume 3 .done, .resume 3 .done]

/-- The first build lands first, and the second one on top of it. -/
theorem image_and_schedule_stored_updated :
    ∃ final task,
      Run
          (Interleaving.Step (taskServices lenientServer)
            (TaskView.BuildsInOrder lenientServer))
          (.initial taskProtocol .initial)
          (createTurns ++ updateTurns ++ buildTurns ++ secondBuildTurns)
          final ∧
        final.shared.tables.tasks.rows = [task] ∧
        task.config.config = hourly ∧
        final.shared.HasImageOf task.id task.config ∧
        ∃ entry,
          final.shared.scheduler.entries task.id = some entry ∧
            entry.running = true ∧
            entry.scheduleConfig = task.config.config.scheduleConfig := by
  have run
      (final : Interleaving TaskState taskProtocol)
      (executed :
        (Interleaving.initial taskProtocol .initial).executeIf
            (taskServices lenientServer) (buildsInOrderBelow 4 lenientServer)
            (createTurns ++ updateTurns ++ buildTurns ++ secondBuildTurns) =
          some final) :
      Run
        (Interleaving.Step (taskServices lenientServer)
          (TaskView.BuildsInOrder lenientServer))
        (.initial taskProtocol .initial)
        (createTurns ++ updateTurns ++ buildTurns ++ secondBuildTurns) final :=
    Interleaving.run_of_executeIf_below
      (fun _ below turn passed => buildsInOrder_of_below below turn passed)
      (fun _ _ => rfl) (by decide) executed
  exact ⟨_, _, run _ rfl, rfl, rfl,
    image_and_schedule_stored _ _ _ (run _ rfl)
      (.of_range 4 (by decide) (fun _ => rfl) rfl) _ List.mem_cons_self⟩

/-- The second build lands first, and the first one on top of it. -/
theorem image_outdated :
    ∃ final task,
      Run (Interleaving.Step (taskServices lenientServer) fun _ _ => True)
          (.initial taskProtocol .initial)
          (createTurns ++ updateTurns ++ secondBuildTurns ++ buildTurns)
          final ∧
        Quiescent final ∧
        final.shared.tables.tasks.rows = [task] ∧
        task.active = true ∧
        ¬ final.shared.HasImageOf task.id task.config := by
  refine ⟨_, _, Interleaving.run_of_foldlM rfl,
    .of_range 4 (by decide) (fun _ => rfl) rfl, rfl, rfl, ?_⟩
  rintro ⟨image, tagged, _, sameSteps⟩
  cases tagged
  cases sameSteps

end Prescott
