import Prescott.TaskImages

namespace Prescott

/-!
# The containers of runs

Which calls leave a task alone, and what becomes of the containers of its runs.
A run goes on as long as docker serves it; an executor whose command is refused
stops its task.
-/

namespace Docker

variable {docker : Docker}
variable {name other : String}

/-- A container is found under its name. -/
theorem containerOf_isSome :
    (docker.containerOf name).isSome = true ↔
      ∃ container ∈ docker.containers, container.name = name := by
  simp [containerOf]

theorem containerOf_run
    {image : Image}
    (there : (docker.containerOf name).isSome = true) :
    ((docker.run image other).containerOf name).isSome = true := by
  obtain ⟨container, member, sameName⟩ := containerOf_isSome.mp there
  exact containerOf_isSome.mpr
    ⟨container, List.mem_append_left _ member, sameName⟩

/-- A container that is run is there. -/
theorem containerOf_run_self
    {image : Image} :
    ((docker.run image name).containerOf name).isSome = true :=
  containerOf_isSome.mpr
    ⟨_, List.mem_append_right _ (List.mem_singleton.mpr rfl), rfl⟩

theorem containerOf_exit
    {exitCode : Int}
    (there : (docker.containerOf name).isSome = true) :
    ((docker.exit other exitCode).containerOf name).isSome = true := by
  obtain ⟨container, member, sameName⟩ := containerOf_isSome.mp there
  refine containerOf_isSome.mpr ⟨_, List.mem_map_of_mem member, ?_⟩
  split
  · exact sameName
  · exact sameName

/-- The removal of another container leaves a container there. -/
theorem containerOf_removeContainer
    (different : other ≠ name)
    (there : (docker.containerOf name).isSome = true) :
    ((docker.removeContainer other).containerOf name).isSome = true := by
  obtain ⟨container, member, sameName⟩ := containerOf_isSome.mp there
  refine containerOf_isSome.mpr
    ⟨container, List.mem_filter.mpr ⟨member, ?_⟩, sameName⟩
  rw [sameName]
  exact bne_iff_ne.mpr (Ne.symm different)

end Docker

namespace TaskState

variable {config : TaskServerConfig}
variable {op : TaskOp}
variable {input : TaskInput}
variable {before after : TaskState}
variable {answer : Except AppError op.Result}
variable {id : Nat}

/-- A container stays where it is not removed. -/
theorem containerOf_of_answered
    {name : String}
    (answered : taskHost config op input before = some (answer, after))
    (notRemoved :
      input.refuses = false → ∀ isForce, op ≠ .dockerRemove name isForce)
    (there : (before.docker.containerOf name).isSome = true) :
    (after.docker.containerOf name).isSome = true := by
  have step := dockerStep_of_answered answered
  generalize after.docker = docker at step ⊢
  cases step with
  | run => exact Docker.containerOf_run there
  | exit => exact Docker.containerOf_exit there
  | @removeContainer container isForce served =>
      refine Docker.containerOf_removeContainer ?_ there
      rintro rfl
      exact notRemoved served isForce rfl
  | _ => exact there

/-- A run is given the name of a container that is there from then on. -/
theorem container_of_run
    {envId name : String}
    {limitations : Option Limitations}
    (answered :
      taskHost config (.runEnv envId limitations) input before =
        some (.ok name, after)) :
    input = .container name ∧
      (after.docker.containerOf name).isSome = true := by
  rcases command_cases answered with
      ⟨⟨_, _, failed⟩, _⟩ | ⟨_, docker, done, resolved, rfl⟩
  · cases failed
  · cases resolved
    split at done
    · split at done <;> cases done
      exact ⟨rfl, Docker.containerOf_run_self⟩
    · cases done

/-- An active task is found active. -/
theorem active_of_found
    {task : Task}
    (answered :
      taskHost config (.findTaskById id) input before =
        some (.ok (some task), after))
    (active : before.tables.IsActive id) :
    task.active = true := by
  obtain ⟨member, sameId, _⟩ := task_of_found answered
  obtain ⟨row, rowMember, rowId, isActive⟩ := active
  rw [Table.eq_of_key member rowMember (sameId.trans rowId.symm)]
  exact isActive

end TaskState

namespace TaskPhase

/-- The container that a run has in a phase of its executor. -/
def container? : TaskPhase → Option String
  | .marking container _ | .waiting container _ | .finishing container _ _
  | .removing container _ => some container
  | _ => none

/-- The task that a call is about to deactivate, or whose entry it stops. -/
def stops : TaskPhase → Option Nat
  | .deactivating taskId | .unscheduling taskId | .disabling taskId
  | .unlocking taskId .refused => some taskId
  | _ => none

/-- The executor goes on with its run, or it has left it behind. -/
def proceeds : TaskPhase → Bool
  | .beginning | .launching _ | .marking _ _ | .waiting _ _
  | .finishing _ _ _ | .removing _ _ | .leaving | .settled _ => true
  | _ => false

/-- The call is not about to stop the task or to register it. -/
structure LeavesAlone (call : TaskCall) (phase : TaskPhase) (id : Nat) :
    Prop where
  plans : phase.plans ≠ some id
  stops : phase.stops ≠ some id
  proceeds :
    ∀ runHandle,
      call = .executor runHandle →
      runHandle.taskId = id → phase.proceeds = true
  begins :
    phase = .beginning →
      call ≠ .stopTask id ∧ ∀ taskConfig, call ≠ .updateTask id taskConfig

/-- What a run needs for its next operation is there and not refused. -/
def Served
    (state : TaskState)
    (runHandle : TaskRunHandle)
    (input : TaskInput) :
    TaskPhase → Prop
  | .launching _ =>
      (state.docker.images (buildTaskIdentifier runHandle.taskId)).isSome =
          true ∧
        input.refuses = false
  | .waiting container _ =>
      (state.docker.containerOf container).isSome = true →
      input.refuses = false
  | .removing container times =>
      ((state.docker.containerOf container).isSome = true →
        input.refuses = false) ∧
        ∀ limit, times = some limit → runHandle.runRank.reaches limit = false
  | _ => True

variable {config : TaskServerConfig}
variable {call : TaskCall}
variable {phase : TaskPhase}
variable {op : TaskOp}
variable {input : TaskInput}
variable {before after : TaskState}
variable {answer : Except AppError op.Result}
variable {id : Nat}

/-- A run keeps its container, or it has just been given one. -/
theorem container_advance
    {container : String}
    (permitted : phase.permits call op)
    (answered : taskHost config op input before = some (answer, after))
    (has : (phase.advance call op answer).container? = some container) :
    phase.container? = some container ∨
      (input = .container container ∧
        (after.docker.containerOf container).isSome = true) := by
  have advances := advances_advance answer permitted
  generalize phase.advance call op answer = next at advances has
  cases advances with
  | failed fails =>
      cases fails with
      | same => exact .inl has
      | _ => cases has
  | launched =>
      cases has
      exact .inr (TaskState.container_of_run answered)
  | marked | terminated | finished => exact .inl has
  | present | dispatched => cases call <;> cases has
  | _ => cases has

namespace LeavesAlone

variable {runHandle : TaskRunHandle}

/-- A call that leaves a task alone neither stops nor registers it. -/
theorem spares
    (alone : LeavesAlone call phase id)
    (permitted : phase.permits call op) :
    op.plans ≠ some id ∧
      op ≠ .schedulerStop id ∧ op ≠ .setTaskActive id false := by
  refine ⟨fun planned => alone.plans (plans_of_permits permitted planned),
    ?_, ?_⟩
  · rintro rfl
    cases phase <;> simp [permits] at permitted
    case beginning => cases call <;> simp [TaskCall.firstOp] at permitted
    case unscheduling => exact alone.stops (congrArg some permitted.symm)
    case disabling => exact alone.stops (congrArg some permitted.symm)
    case autoUnscheduling =>
      obtain ⟨runHandle, isCall, sameId⟩ := permitted
      cases alone.proceeds runHandle isCall sameId.symm
  · rintro rfl
    cases phase <;> simp [permits] at permitted
    case beginning => cases call <;> simp [TaskCall.firstOp] at permitted
    case deactivating => exact alone.stops (congrArg some permitted.symm)
    case autoStopping =>
      obtain ⟨runHandle, isCall, sameId⟩ := permitted
      cases alone.proceeds runHandle isCall sameId.symm

/-- What a call may begin with: a look at the task, which may be active. -/
theorem advance_beginning
    (alone : LeavesAlone call .beginning id)
    (permitted : TaskPhase.beginning.permits call op)
    (answered : taskHost config op input before = some (answer, after))
    (active : before.tables.IsActive id) :
    LeavesAlone call (TaskPhase.beginning.advance call op answer) id := by
  obtain ⟨notStopped, notUpdated⟩ := alone.begins rfl
  cases call with
  | createTask groupId userId taskConfig =>
      cases permitted
      rcases answer with _ | _ | _ <;> exact ⟨nofun, nofun, nofun, nofun⟩
  | deleteTask taskId =>
      cases permitted
      rcases answer with reason | _ | task
      · exact ⟨nofun, nofun, nofun, nofun⟩
      · exact ⟨nofun, nofun, nofun, nofun⟩
      · change LeavesAlone _
          (if task.active then .settled false
          else .unregistering taskId none) id
        split
        · exact ⟨nofun, nofun, nofun, nofun⟩
        · rename_i inactive
          refine ⟨?_, nofun, nofun, nofun⟩
          rintro ⟨⟩
          exact inactive (TaskState.active_of_found answered active)
  | stopTask taskId =>
      cases permitted
      have different : taskId ≠ id := by
        rintro rfl
        exact notStopped rfl
      rcases answer with reason | _ | task
      · exact ⟨nofun, nofun, nofun, nofun⟩
      · exact ⟨nofun, nofun, nofun, nofun⟩
      · change LeavesAlone _
          (if task.active then .deactivating taskId else .settled false) id
        split
        · refine ⟨nofun, ?_, nofun, nofun⟩
          rintro ⟨⟩
          exact different rfl
        · exact ⟨nofun, nofun, nofun, nofun⟩
  | startTask taskId =>
      cases permitted
      rcases answer with reason | _ | task
      · exact ⟨nofun, nofun, nofun, nofun⟩
      · exact ⟨nofun, nofun, nofun, nofun⟩
      · change LeavesAlone _
          (if task.active then .settled false
          else .checkingEntry taskId task.config) id
        split
        · exact ⟨nofun, nofun, nofun, nofun⟩
        · rename_i inactive
          refine ⟨?_, nofun, nofun, nofun⟩
          rintro ⟨⟩
          exact inactive (TaskState.active_of_found answered active)
  | updateTask taskId taskConfig =>
      cases permitted
      rcases answer with reason | _ | task
      · exact ⟨nofun, nofun, nofun, nofun⟩
      · exact ⟨nofun, nofun, nofun, nofun⟩
      · refine ⟨?_, nofun, nofun, nofun⟩
        rintro ⟨⟩
        exact notUpdated taskConfig rfl
  | build taskId taskConfig =>
      cases permitted
      rcases answer with _ | _ <;> exact ⟨nofun, nofun, nofun, nofun⟩
  | callback taskId =>
      cases permitted
      rcases answer with reason | _ | task
      · exact ⟨nofun, nofun, nofun, nofun⟩
      · exact ⟨nofun, nofun, nofun, nofun⟩
      · change LeavesAlone _
          (if task.active then .locking taskId task.config.times 4
          else .settled true) id
        split <;> exact ⟨nofun, nofun, nofun, nofun⟩
  | executor runHandle =>
      cases permitted
      rcases answer with reason | _ | task
      · cases answered
      · exact ⟨nofun, nofun, fun _ _ _ => rfl, nofun⟩
      · change LeavesAlone _
          (if task.active then .launching task.config else .leaving) id
        split <;> exact ⟨nofun, nofun, fun _ _ _ => rfl, nofun⟩
  | exit container exitCode =>
      cases permitted

/-- A call other than a run of the task goes on leaving the task alone. -/
theorem advance_other
    (alone : LeavesAlone call phase id)
    (permitted : phase.permits call op)
    (answered : taskHost config op input before = some (answer, after))
    (active : before.tables.IsActive id)
    (otherCall :
      ∀ runHandle, call = .executor runHandle → runHandle.taskId ≠ id)
    (within :
      ∀ limit,
        phase = .counting id limit →
        ((before.tables.runsOf id).length : Rat) < limit) :
    LeavesAlone call (phase.advance call op answer) id := by
  by_cases begins : phase = .beginning
  · subst begins
    exact alone.advance_beginning permitted answered active
  have notRun
      {next : TaskPhase}
      (runHandle : TaskRunHandle)
      (isCall : call = .executor runHandle)
      (sameId : runHandle.taskId = id) :
      next.proceeds = true :=
    (otherCall runHandle isCall sameId).elim
  by_cases counts : ∃ taskId limit, phase = .counting taskId limit
  · obtain ⟨taskId, limit, rfl⟩ := counts
    cases permitted
    cases answered
    change LeavesAlone call
      (if ((before.tables.runsOf taskId).length : Rat) < limit then
        .creating taskId
          (.finite ((before.tables.runsOf taskId).length + 1))
      else
        .unlocking taskId .refused) id
    split
    · exact ⟨nofun, nofun, notRun, nofun⟩
    · rename_i reached
      refine ⟨nofun, ?_, notRun, nofun⟩
      rintro ⟨⟩
      exact reached (within limit rfl)
  have notPlanned := alone.plans
  have notStopped := alone.stops
  have advances := advances_advance answer permitted
  generalize phase.advance call op answer = next at advances ⊢
  cases advances with
  | failed fails =>
      cases fails with
      | same => exact alone
      | _ => exact ⟨nofun, nofun, notRun, nofun⟩
  | unnamed | deletes | stops | starts | updates | fires | runs | built =>
      exact (begins rfl).elim
  | inserted =>
      -- a new task is another one
      refine ⟨?_, nofun, notRun, nofun⟩
      rintro ⟨⟩
      rcases TaskState.attempt_eq answered with
          ⟨_, _, inserted, shape, _⟩ | ⟨_, _, rejected, _⟩
      · cases shape
        obtain ⟨task, member, sameId, _⟩ := active
        have below := before.tables.tasks.keysBelow task member
        exact Nat.ne_of_lt below
          (sameId.trans (TaskTables.nextId_insertTask inserted).1)
      · cases rejected
  | missing | scheduled | unregistered | clearing | clearedForUpdate
  | clearedForDelete | flushing | flushed =>
      exact ⟨notPlanned, nofun, notRun, nofun⟩
  | present | dispatched =>
      cases call with
      | updateTask => exact ⟨notPlanned, nofun, notRun, nofun⟩
      | _ => exact ⟨nofun, nofun, notRun, nofun⟩
  | deactivated | unlockedRefused => exact ⟨nofun, notStopped, notRun, nofun⟩
  | refused => exact (counts ⟨_, _, rfl⟩).elim
  | fails isCall =>
      refine ⟨nofun, ?_, notRun, nofun⟩
      rintro ⟨⟩
      exact otherCall _ isCall rfl
  | _ => exact ⟨nofun, nofun, notRun, nofun⟩

/-- A run of the task that is served goes on with its next operation. -/
theorem advance_run
    (alone : LeavesAlone (.executor runHandle) phase runHandle.taskId)
    (permitted : phase.permits (.executor runHandle) op)
    (answered : taskHost config op input before = some (answer, after))
    (active : before.tables.IsActive runHandle.taskId)
    (there :
      ∀ container,
        phase.container? = some container →
        (before.docker.containerOf container).isSome = true)
    (served : phase.Served before runHandle input) :
    LeavesAlone (.executor runHandle)
      (phase.advance (.executor runHandle) op answer) runHandle.taskId := by
  have proceeds := alone.proceeds runHandle rfl rfl
  cases phase with
  | beginning => exact alone.advance_beginning permitted answered active
  | launching taskConfig =>
      obtain ⟨_, _, rfl⟩ := permitted
      obtain ⟨container, rfl⟩ :=
        TaskState.resolved_of_command answered served.2
      exact ⟨nofun, nofun, fun _ _ _ => rfl, nofun⟩
  | marking container times =>
      obtain ⟨_, _, rfl⟩ := permitted
      cases answered
      exact ⟨nofun, nofun, fun _ _ _ => rfl, nofun⟩
  | waiting container times =>
      have accepted := served (there container rfl)
      rcases permitted with rfl | rfl
      · obtain ⟨exitCode, rfl⟩ :=
          TaskState.resolved_of_command answered accepted
        exact ⟨nofun, nofun, fun _ _ _ => rfl, nofun⟩
      · obtain ⟨exitCode, rfl⟩ :=
          TaskState.resolved_of_command answered accepted
        exact ⟨nofun, nofun, fun _ _ _ => rfl, nofun⟩
  | finishing container exitCode times =>
      obtain ⟨_, _, rfl⟩ := permitted
      cases answered
      exact ⟨nofun, nofun, fun _ _ _ => rfl, nofun⟩
  | removing container times =>
      obtain ⟨_, _, rfl⟩ := permitted
      obtain ⟨value, rfl⟩ :=
        TaskState.resolved_of_command answered
          (served.1 (there container rfl))
      cases times with
      | none => exact ⟨nofun, nofun, fun _ _ _ => rfl, nofun⟩
      | some limit =>
          have below := served.2 limit rfl
          change LeavesAlone _
            (if runHandle.runRank.reaches limit then .autoUnscheduling
            else .leaving) _
          rw [below]
          exact ⟨nofun, nofun, fun _ _ _ => rfl, nofun⟩
  | leaving =>
      cases permitted
      cases answered
      exact ⟨nofun, nofun, fun _ _ _ => rfl, nofun⟩
  | settled resolved => exact permitted.elim
  | _ => cases proceeds

end LeavesAlone

end TaskPhase

end Prescott
