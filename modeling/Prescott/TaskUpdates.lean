import Prescott.AutomaticStops
import Prescott.ListedChildren
import Prescott.RunContainers
import Prescott.StopFinality

namespace Prescott

/-!
# The update of an active task

An update deletes the entry of its task, removes the containers of the task by
force and registers the task again.  The executor of a run that loses its
container stops the whole task.  An active task stays active, with the new
config and an entry that is not stopped, as long as no run loses its container
and none is launched while there is no image.
-/

/-- What is seen of interleaved task calls and the children they clear. -/
abbrev ClearingView := clearingProtocol.View TaskState

/-- The update will not come back to the entry that it has scheduled. -/
def TaskPhase.hasScheduled : TaskPhase → Bool
  | .storing _ _ | .settled true => true
  | _ => false

/-- What holds of entry and row while an update is in a phase. -/
def TaskPhase.Updated
    (state : TaskState)
    (id : Nat)
    (taskConfig : LocalTaskConfig) :
    TaskPhase → Prop
  | .beginning | .settled false => True
  | .unregistering taskId newConfig =>
      taskId = id ∧ newConfig.map TaskConfigDto.config = some taskConfig
  | .clearing taskId newConfig =>
      taskId = id ∧ newConfig.map TaskConfigDto.config = some taskConfig ∧
        state.scheduler.scheduleOf id = none
  | .checkingEntry taskId newConfig | .scheduling taskId newConfig =>
      taskId = id ∧ newConfig.config = taskConfig ∧
        state.scheduler.scheduleOf id = none
  | .dispatching taskId newConfig | .storing taskId newConfig =>
      taskId = id ∧ newConfig.config = taskConfig ∧
        state.scheduler.scheduleOf id = some taskConfig.scheduleConfig
  | .settled true =>
      (∃ stored,
        state.tables.HasConfig id stored ∧ stored.config = taskConfig) ∧
        state.scheduler.scheduleOf id = some taskConfig.scheduleConfig
  | _ => False

namespace TaskPhase

variable {config : TaskServerConfig}
variable {call : TaskCall}
variable {phase : TaskPhase}
variable {op : TaskOp}
variable {input : TaskInput}
variable {before after : TaskState}
variable {answer : Except AppError op.Result}
variable {id : Nat}
variable {taskConfig : LocalTaskConfig}

/-- A container is removed by its run or, by force, where a task is cleared. -/
theorem removing_of_permits
    {container : String}
    {isForce : Bool}
    (permitted : phase.permits call (.dockerRemove container isForce)) :
    (isForce = true ∧
        ∃ taskId newConfig, phase = .clearing taskId newConfig) ∨
      ∃ runHandle times,
        call = .executor runHandle ∧ phase = .removing container times := by
  cases phase <;> simp [permits] at permitted
  case beginning => cases call <;> simp [TaskCall.firstOp] at permitted
  case clearing taskId newConfig =>
    exact .inl ⟨permitted, taskId, newConfig, rfl⟩
  case removing other times =>
    obtain ⟨⟨runHandle, isCall⟩, rfl, _⟩ := permitted
    exact .inr ⟨runHandle, times, isCall, rfl⟩

/-- After the removal of its container a run has none. -/
theorem container_removed
    {container : String}
    {times : Option Rat} :
    ((TaskPhase.removing container times).advance call op answer).container? =
      none := by
  simp only [advance]
  split
  · split <;> rfl
  · rfl
  · rfl

/-- An update awaits nothing that stops its task or deletes it. -/
theorem Updated.spares
    (updated : phase.Updated before id taskConfig)
    (permitted : phase.permits (.updateTask id taskConfig) op) :
    op ≠ .schedulerStop id ∧
      op ≠ .setTaskActive id false ∧ op ≠ .deleteTaskById id := by
  cases phase with
  | clearing =>
      rcases permitted with rfl | ⟨_, rfl⟩ | rfl
      · exact ⟨nofun, nofun, nofun⟩
      · exact ⟨nofun, nofun, nofun⟩
      · exact ⟨nofun, nofun, nofun⟩
  | beginning | unregistering | checkingEntry | scheduling | dispatching
  | storing =>
      cases permitted
      exact ⟨nofun, nofun, nofun⟩
  | settled => exact permitted.elim
  | _ => exact updated.elim

/-- The update goes on as it should while others leave its task alone. -/
theorem Updated.same
    (updated : phase.Updated before id taskConfig)
    (same : TaskState.SameFor id before after) :
    phase.Updated after id taskConfig := by
  cases phase with
  | clearing | checkingEntry | scheduling | dispatching | storing =>
      simp only [Updated, same.scheduleOf] at updated ⊢
      exact updated
  | beginning | unregistering => exact updated
  | settled resolved =>
      cases resolved with
      | false => trivial
      | true =>
          obtain ⟨⟨stored, hasConfig, sameConfig⟩, carries⟩ := updated
          exact ⟨⟨stored, same.hasConfig stored hasConfig, sameConfig⟩,
            same.scheduleOf.trans carries⟩
  | _ => exact updated.elim

/-- The entry that an update has scheduled is there. -/
theorem Updated.scheduleOf
    (updated : phase.Updated before id taskConfig)
    (hasScheduled : phase.hasScheduled = true) :
    before.scheduler.exists? id = true := by
  rw [CronScheduler.exists_iff_scheduleOf]
  cases phase with
  | storing => rw [updated.2.2]; rfl
  | settled resolved =>
      cases resolved with
      | true => rw [updated.2]; rfl
      | false => cases hasScheduled
  | _ => cases hasScheduled

/-- Every step of an update brings it closer to what it is for. -/
theorem Updated.advance
    (updated : phase.Updated before id taskConfig)
    (permitted : phase.permits (.updateTask id taskConfig) op)
    (answered : taskHost config op input before = some (answer, after))
    (has : before.tables.Has id) :
    (phase.advance (.updateTask id taskConfig) op answer).Updated after id
      taskConfig := by
  cases phase with
  | beginning =>
      cases permitted
      rcases answer with _ | _ | _
      · trivial
      · trivial
      · exact ⟨rfl, rfl⟩
  | unregistering taskId newConfig =>
      obtain ⟨rfl, sameConfig⟩ := updated
      cases permitted
      cases answered
      exact ⟨rfl, sameConfig, CronScheduler.scheduleOf_deleteTask_self⟩
  | clearing taskId newConfig =>
      obtain ⟨rfl, mapped, absent⟩ := updated
      obtain ⟨newConfig, rfl, sameConfig⟩ := Option.map_eq_some_iff.mp mapped
      have stillAbsent : after.scheduler.scheduleOf taskId = none := by
        rw [(taskHost_keeps answered).scheduler]
        · exact absent
        · rcases permitted with rfl | ⟨_, rfl⟩ | rfl <;> rfl
      have clearing :
          (TaskPhase.clearing taskId (some newConfig)).Updated after taskId
            taskConfig :=
        ⟨rfl, mapped, stillAbsent⟩
      rcases permitted with rfl | ⟨_, rfl⟩ | rfl
      · cases answer with
        | ok names => exact clearing
        | error reason => trivial
      · exact clearing
      · cases answer with
        | ok value => exact ⟨rfl, sameConfig, stillAbsent⟩
        | error reason => trivial
  | checkingEntry taskId newConfig =>
      obtain ⟨rfl, sameConfig, absent⟩ := updated
      cases permitted
      cases answered
      rw [CronScheduler.exists_iff_scheduleOf, absent]
      exact ⟨rfl, sameConfig, absent⟩
  | scheduling taskId newConfig =>
      obtain ⟨rfl, rfl, absent⟩ := updated
      cases permitted
      simp only [taskHost] at answered
      split at answered
      · cases answered
        exact ⟨rfl, rfl, CronScheduler.scheduleOf_scheduleTask_self⟩
      · cases answered
        trivial
  | dispatching taskId newConfig =>
      cases permitted
      cases answered
      exact updated
  | storing taskId newConfig =>
      obtain ⟨rfl, sameConfig, carries⟩ := updated
      cases permitted
      cases answered
      exact ⟨⟨newConfig, .of_setConfig has, sameConfig⟩, carries⟩
  | settled resolved => exact permitted.elim
  | _ => exact updated.elim

/-- An update has scheduled the entry once it has dispatched the build. -/
theorem Updated.scheduled_advance
    (updated : phase.Updated before id taskConfig)
    (permitted : phase.permits (.updateTask id taskConfig) op)
    (answered : taskHost config op input before = some (answer, after))
    (hasScheduled :
      (phase.advance (.updateTask id taskConfig) op answer).hasScheduled =
        true) :
    (∃ taskId newConfig, phase = .dispatching taskId newConfig) ∨
      ∃ taskId newConfig, phase = .storing taskId newConfig := by
  cases phase with
  | beginning =>
      cases permitted
      rcases answer with _ | _ | _ <;> cases hasScheduled
  | unregistering | scheduling =>
      cases permitted
      rcases answer with _ | _ <;> cases hasScheduled
  | clearing taskId newConfig =>
      obtain ⟨_, mapped, _⟩ := updated
      obtain ⟨newConfig, rfl, _⟩ := Option.map_eq_some_iff.mp mapped
      rcases permitted with rfl | ⟨_, rfl⟩ | rfl
      · rcases answer with _ | _ <;> cases hasScheduled
      · cases hasScheduled
      · rcases answer with _ | _ <;> cases hasScheduled
  | checkingEntry taskId newConfig =>
      obtain ⟨rfl, _, absent⟩ := updated
      cases permitted
      cases answered
      rw [CronScheduler.exists_iff_scheduleOf, absent] at hasScheduled
      cases hasScheduled
  | dispatching => exact .inl ⟨_, _, rfl⟩
  | storing => exact .inr ⟨_, _, rfl⟩
  | settled => exact permitted.elim
  | _ => exact updated.elim

end TaskPhase

namespace ClearingView

/-- The executor of a run has a container. -/
def Holds
    (view : ClearingView)
    (pid : Nat)
    (runHandle : TaskRunHandle)
    (container : String) :
    Prop :=
  ∃ phase childrenLeft,
    view.progress pid = some ⟨.executor runHandle, (phase, childrenLeft)⟩ ∧
      phase.container? = some container

/-- No two executors have one container. -/
def Distinct (view : ClearingView) : Prop :=
  ∀ pid other runHandle otherHandle container,
    view.Holds pid runHandle container →
    view.Holds other otherHandle container → pid = other

/-- The entry of the task runs, or a build of the config is to start it. -/
def Starts
    (view : ClearingView)
    (id : Nat)
    (taskConfig : LocalTaskConfig) :
    Prop :=
  view.shared.scheduler.isRunning id = true ∨
    ∃ built : TaskConfigDto,
      built.config = taskConfig ∧
        ((id, built) ∈ view.shared.builds ∨
          ∃ pid phase childrenLeft,
            view.progress pid =
                some ⟨.build id built, (phase, childrenLeft)⟩ ∧
              (phase = .beginning ∨ phase = .starting id))

/-- The task is active, nothing stops it, and its runs have their containers. -/
structure Undisturbed (view : ClearingView) (pid id : Nat) : Prop where
  active : view.shared.tables.IsActive id
  alone :
    ∀ other call phase childrenLeft,
      other ≠ pid →
      view.progress other = some ⟨call, (phase, childrenLeft)⟩ →
      phase.LeavesAlone call id
  there :
    ∀ other runHandle container,
      runHandle.taskId = id →
      view.Holds other runHandle container →
      (view.shared.docker.containerOf container).isSome = true

/--
The condition on an answer: a run of the task is served; no container of such
a run is removed by force; no run limit is reached; and a build of the config
succeeds.
-/
structure Considerate
    (view : ClearingView)
    (id : Nat)
    (taskConfig : LocalTaskConfig)
    (pid : Nat)
    (input : TaskInput) :
    Prop where
  served :
    ∀ runHandle phase childrenLeft,
      view.progress pid = some ⟨.executor runHandle, (phase, childrenLeft)⟩ →
      runHandle.taskId = id → phase.Served view.shared runHandle input
  removal :
    ∀ call taskId newConfig container rest,
      view.progress pid =
        some ⟨call, (.clearing taskId newConfig, container :: rest)⟩ →
      input.refuses = false →
      ∀ other runHandle,
        runHandle.taskId = id → ¬ view.Holds other runHandle container
  within :
    ∀ call limit childrenLeft,
      view.progress pid = some ⟨call, (.counting id limit, childrenLeft)⟩ →
      ((view.shared.tables.runsOf id).length : Rat) < limit
  builds :
    ∀ built childrenLeft,
      view.progress pid =
        some ⟨.build id built, (.beginning, childrenLeft)⟩ →
      built.config = taskConfig → input.succeeds = true

/--
The condition on a turn: a container is given a name that no executor uses
any more; the update begins while nothing disturbs the task; and from then on
the task is neither stopped nor updated by another request, and the answers are
considerate.
-/
def UpdatedAlone
    (updater id : Nat)
    (taskConfig : LocalTaskConfig)
    (view : ClearingView) :
    Turn TaskCall TaskInput → Prop
  | .invoke pid call =>
      if pid = updater then
        call = .updateTask id taskConfig ∧ view.Undisturbed updater id
      else
        view.progress updater ≠ none →
          call ≠ .stopTask id ∧ ∀ newConfig, call ≠ .updateTask id newConfig
  | .resume pid input =>
      (∀ name,
        input = .container name →
        ∀ other runHandle, ¬ view.Holds other runHandle name) ∧
        (view.progress updater ≠ none →
          view.Considerate id taskConfig pid input)

/-- What holds from the beginning of the update on. -/
structure Updating
    (view : ClearingView)
    (updater id : Nat)
    (taskConfig : LocalTaskConfig) :
    Prop where
  undisturbed : view.Undisturbed updater id
  updated :
    ∃ phase childrenLeft,
      view.progress updater =
          some ⟨.updateTask id taskConfig, (phase, childrenLeft)⟩ ∧
        phase.Updated view.shared id taskConfig ∧
        (phase.hasScheduled = true → view.Starts id taskConfig)

variable {config : TaskServerConfig}
variable {view : ClearingView}
variable {pid updater id : Nat}
variable {taskConfig : LocalTaskConfig}
variable {call : TaskCall}
variable {phase : TaskPhase}
variable {childrenLeft : List String}
variable {op : TaskOp}
variable {input : TaskInput}
variable {answer : Except AppError op.Result}
variable {shared : TaskState}

/-- The view after an answer. -/
abbrev answered
    (view : ClearingView)
    (pid : Nat)
    (call : TaskCall)
    (phase : TaskPhase)
    (childrenLeft : List String)
    (op : TaskOp)
    (answer : Except AppError op.Result)
    (shared : TaskState) :
    ClearingView :=
  view.place pid
    ⟨call, (phase.advance call op answer, childrenAfter childrenLeft op answer)⟩
    shared

/-- An executor has had its container, or it has just been given it. -/
theorem Holds.of_answered
    {other : Nat}
    {runHandle : TaskRunHandle}
    {container : String}
    (holds :
      (view.answered pid call phase childrenLeft op answer shared).Holds other
        runHandle container)
    (present : view.progress pid = some ⟨call, (phase, childrenLeft)⟩)
    (permitted : phase.permits call op)
    (hasAnswered :
      taskHost config op input view.shared = some (answer, shared)) :
    view.Holds other runHandle container ∨
      (other = pid ∧ input = .container container ∧
        (shared.docker.containerOf container).isSome = true) := by
  obtain ⟨otherPhase, left, found, has⟩ := holds
  rcases Protocol.View.place_cases found with ⟨rfl, shape⟩ | ⟨_, earlier⟩
  · cases shape
    rcases TaskPhase.container_advance permitted hasAnswered has with
        before | given
    · exact .inl ⟨_, _, present, before⟩
    · exact .inr ⟨rfl, given⟩
  · exact .inl ⟨_, _, earlier, has⟩

/-- Containers are given out under names that nobody uses. -/
theorem Distinct.answered
    (distinct : view.Distinct)
    (fresh :
      ∀ name,
        input = .container name →
        ∀ other runHandle, ¬ view.Holds other runHandle name)
    (present : view.progress pid = some ⟨call, (phase, childrenLeft)⟩)
    (permitted : phase.permits call op)
    (hasAnswered :
      taskHost config op input view.shared = some (answer, shared)) :
    (view.answered pid call phase childrenLeft op answer shared).Distinct := by
  intro first second runHandle otherHandle container holds otherHolds
  rcases holds.of_answered present permitted hasAnswered with
      before | ⟨rfl, given, _⟩
  · rcases otherHolds.of_answered present permitted hasAnswered with
        otherBefore | ⟨_, given, _⟩
    · exact distinct _ _ _ _ _ before otherBefore
    · exact (fresh container given _ _ before).elim
  · rcases otherHolds.of_answered present permitted hasAnswered with
        otherBefore | ⟨rfl, _, _⟩
    · exact (fresh container given _ _ otherBefore).elim
    · rfl

/-- No answer takes a container away from a run of the task. -/
theorem Undisturbed.there_answered
    {other : Nat}
    {runHandle : TaskRunHandle}
    {container : String}
    (undisturbed : view.Undisturbed updater id)
    (distinct : view.Distinct)
    (considerate : view.Considerate id taskConfig pid input)
    (present : view.progress pid = some ⟨call, (phase, childrenLeft)⟩)
    (permitted : clearingProtocol.permits call (phase, childrenLeft) op)
    (hasAnswered :
      taskHost config op input view.shared = some (answer, shared))
    (ofTask : runHandle.taskId = id)
    (holds :
      (view.answered pid call phase childrenLeft op answer shared).Holds other
        runHandle container) :
    (shared.docker.containerOf container).isSome = true := by
  rcases holds.of_answered present permitted.1 hasAnswered with
      before | ⟨_, _, isThere⟩
  · refine TaskState.containerOf_of_answered hasAnswered ?_
      (undisturbed.there other runHandle container ofTask before)
    rintro served isForce rfl
    rcases TaskPhase.removing_of_permits permitted.1 with
        ⟨rfl, taskId, newConfig, rfl⟩ | ⟨own, times, rfl, rfl⟩
    · -- by force only what no run of the task has
      obtain ⟨rest, rfl⟩ :=
        List.head?_eq_some_iff.mp (permitted.2 container rfl)
      exact considerate.removal call taskId newConfig container rest present
        served other runHandle ofTask before
    · -- otherwise the run removes its own one, and then it has none
      have isOwn : pid = other :=
        distinct pid other own runHandle container
          ⟨_, _, present, rfl⟩ before
      subst isOwn
      obtain ⟨_, _, found, has⟩ := holds
      rcases Protocol.View.place_cases found with ⟨_, shape⟩ | ⟨moved, _⟩
      · cases shape
        rw [TaskPhase.container_removed] at has
        cases has
      · exact moved rfl
  · exact isThere

/-- A call goes on leaving the task alone. -/
theorem Undisturbed.alone_answered
    (undisturbed : view.Undisturbed updater id)
    (considerate : view.Considerate id taskConfig pid input)
    (present : view.progress pid = some ⟨call, (phase, childrenLeft)⟩)
    (permitted : phase.permits call op)
    (hasAnswered :
      taskHost config op input view.shared = some (answer, shared))
    (notUpdater : pid ≠ updater) :
    (phase.advance call op answer).LeavesAlone call id := by
  have alone := undisturbed.alone pid call phase childrenLeft notUpdater present
  by_cases isRun :
      ∃ runHandle, call = .executor runHandle ∧ runHandle.taskId = id
  · obtain ⟨runHandle, rfl, rfl⟩ := isRun
    exact alone.advance_run permitted hasAnswered undisturbed.active
      (fun container has =>
        undisturbed.there pid runHandle container rfl ⟨_, _, present, has⟩)
      (considerate.served runHandle phase childrenLeft present rfl)
  · refine alone.advance_other permitted hasAnswered undisturbed.active
      (fun runHandle isCall ofTask => isRun ⟨runHandle, isCall, ofTask⟩) ?_
    rintro limit rfl
    exact considerate.within call limit childrenLeft present

/-- An answer that spares the task leaves it undisturbed. -/
theorem Undisturbed.answered
    (undisturbed : view.Undisturbed updater id)
    (distinct : view.Distinct)
    (considerate : view.Considerate id taskConfig pid input)
    (present : view.progress pid = some ⟨call, (phase, childrenLeft)⟩)
    (permitted : clearingProtocol.permits call (phase, childrenLeft) op)
    (hasAnswered :
      taskHost config op input view.shared = some (answer, shared))
    (notDeactivated : op ≠ .setTaskActive id false)
    (notDeleted : op ≠ .deleteTaskById id) :
    (view.answered pid call phase childrenLeft op answer shared).Undisturbed
      updater id := by
  constructor
  · exact TaskState.staysActive_of_answered hasAnswered notDeactivated notDeleted
      undisturbed.active
  · intro other otherCall otherPhase left notUpdater found
    rcases Protocol.View.place_cases found with ⟨rfl, shape⟩ | ⟨_, earlier⟩
    · cases shape
      exact undisturbed.alone_answered considerate present permitted.1
        hasAnswered notUpdater
    · exact undisturbed.alone other otherCall otherPhase left notUpdater
        earlier
  · intro other runHandle container ofTask holds
    exact undisturbed.there_answered distinct considerate present permitted
      hasAnswered ofTask holds

/-- The entry runs, or its build goes on. -/
theorem Starts.answered
    (starts : view.Starts id taskConfig)
    (considerate : view.Considerate id taskConfig pid input)
    (present : view.progress pid = some ⟨call, (phase, childrenLeft)⟩)
    (permitted : phase.permits call op)
    (hasAnswered :
      taskHost config op input view.shared = some (answer, shared))
    (hasEntry : view.shared.scheduler.exists? id = true)
    (runsOn :
      view.shared.scheduler.isRunning id = true →
      shared.scheduler.isRunning id = true) :
    (view.answered pid call phase childrenLeft op answer shared).Starts id
      taskConfig := by
  rcases starts with
      running | ⟨built, sameConfig, waiting | ⟨builder, step, left, found, stage⟩⟩
  · exact .inl (runsOn running)
  · exact .inr ⟨built, sameConfig,
      .inl (TaskState.mem_builds_of_answered hasAnswered waiting)⟩
  · by_cases moved : builder = pid
    · subst moved
      rw [present] at found
      cases found
      rcases stage with rfl | rfl
      · cases permitted
        have succeeds := considerate.builds built childrenLeft present sameConfig
        simp only [taskHost] at hasAnswered
        split at hasAnswered
        · cases succeeds
        · cases succeeds
        · cases hasAnswered
          exact .inr ⟨built, sameConfig, .inr ⟨builder, _, _,
            Function.update_self .., .inr rfl⟩⟩
      · cases permitted
        cases hasAnswered
        refine .inl ?_
        exact CronScheduler.isRunning_start_self.trans hasEntry
    · exact .inr ⟨built, sameConfig, .inr ⟨builder, step, left,
        (Function.update_of_ne moved ..).trans found, stage⟩⟩

/-- An answer to another call than the update. -/
theorem Updating.answered_other
    (updating : view.Updating updater id taskConfig)
    (distinct : view.Distinct)
    (considerate : view.Considerate id taskConfig pid input)
    (present : view.progress pid = some ⟨call, (phase, childrenLeft)⟩)
    (permitted : clearingProtocol.permits call (phase, childrenLeft) op)
    (hasAnswered :
      taskHost config op input view.shared = some (answer, shared))
    (notUpdater : pid ≠ updater) :
    (view.answered pid call phase childrenLeft op answer shared).Updating
      updater id taskConfig := by
  obtain ⟨undisturbed, step, left, found, updated, starts⟩ := updating
  have alone := undisturbed.alone pid call phase childrenLeft notUpdater present
  obtain ⟨notPlanned, notStopped, notDeactivated⟩ := alone.spares permitted.1
  refine ⟨undisturbed.answered distinct considerate present permitted
    hasAnswered notDeactivated ?_, step, left, ?_, ?_, ?_⟩
  · rintro rfl
    exact notPlanned rfl
  · exact (Function.update_of_ne (Ne.symm notUpdater) ..).trans found
  · exact updated.same (.of_answered hasAnswered notPlanned)
  · intro hasScheduled
    exact (starts hasScheduled).answered considerate present permitted.1
      hasAnswered (updated.scheduleOf hasScheduled)
      (TaskState.isRunning_of_answered hasAnswered notPlanned notStopped)

/-- An answer to the update. -/
theorem Updating.answered_updater
    (updating : view.Updating updater id taskConfig)
    (distinct : view.Distinct)
    (considerate : view.Considerate id taskConfig updater input)
    (present : view.progress updater = some ⟨call, (phase, childrenLeft)⟩)
    (permitted : clearingProtocol.permits call (phase, childrenLeft) op)
    (hasAnswered :
      taskHost config op input view.shared = some (answer, shared)) :
    (view.answered updater call phase childrenLeft op answer shared).Updating
      updater id taskConfig := by
  obtain ⟨undisturbed, step, left, found, updated, starts⟩ := updating
  rw [present] at found
  cases found
  obtain ⟨_, notDeactivated, notDeleted⟩ := updated.spares permitted.1
  refine ⟨undisturbed.answered distinct considerate present permitted
    hasAnswered notDeactivated notDeleted, _, _, Function.update_self ..,
    updated.advance permitted.1 hasAnswered undisturbed.active.has, ?_⟩
  intro hasScheduled
  rcases updated.scheduled_advance permitted.1 hasAnswered hasScheduled with
      ⟨taskId, newConfig, rfl⟩ | ⟨taskId, newConfig, rfl⟩
  · -- the build that starts the entry has just been dispatched
    obtain ⟨rfl, sameConfig, _⟩ := updated
    cases permitted.1
    cases hasAnswered
    exact .inr ⟨newConfig, sameConfig,
      .inl (List.mem_append_right _ (List.mem_singleton.mpr rfl))⟩
  · cases permitted.1
    refine (starts rfl).answered considerate present permitted.1 hasAnswered
      (updated.scheduleOf rfl) ?_
    rw [(taskHost_keeps hasAnswered).scheduler rfl]
    exact fun running => running

/-- A call that begins has no container. -/
theorem Holds.of_begun
    {other : Nat}
    {runHandle : TaskRunHandle}
    {container : String}
    (holds :
      ClearingView.Holds
        (view.place pid ⟨call, clearingProtocol.start call⟩ shared) other
        runHandle container) :
    view.Holds other runHandle container := by
  obtain ⟨otherPhase, left, found, has⟩ := holds
  rcases Protocol.View.place_cases found with ⟨_, shape⟩ | ⟨_, earlier⟩
  · cases shape
    cases has
  · exact ⟨_, _, earlier, has⟩

theorem Distinct.begun
    (distinct : view.Distinct) :
    ClearingView.Distinct
      (view.place pid ⟨call, clearingProtocol.start call⟩ shared) :=
  fun first second runHandle otherHandle container holds otherHolds =>
    distinct first second runHandle otherHandle container holds.of_begun
      otherHolds.of_begun

/-- The beginning of a call, of the update or another one. -/
theorem Undisturbed.begun
    (undisturbed : view.Undisturbed updater id)
    (begins :
      pid ≠ updater →
      call ≠ .stopTask id ∧ ∀ newConfig, call ≠ .updateTask id newConfig)
    (begun : beginTaskCall config call view.shared = some shared) :
    ClearingView.Undisturbed
      (view.place pid ⟨call, clearingProtocol.start call⟩ shared) updater
      id := by
  obtain ⟨sameTables, _, _⟩ := beginTaskCall_keeps begun
  constructor
  · change shared.tables.IsActive id
    rw [sameTables]
    exact undisturbed.active
  · intro other otherCall otherPhase left notUpdater found
    rcases Protocol.View.place_cases found with ⟨rfl, shape⟩ | ⟨_, earlier⟩
    · cases shape
      have spares := begins notUpdater
      cases call <;> exact ⟨nofun, nofun, fun _ _ _ => rfl, fun _ => spares⟩
    · exact undisturbed.alone other otherCall otherPhase left notUpdater
        earlier
  · intro other runHandle container ofTask holds
    have isThere :=
      undisturbed.there other runHandle container ofTask holds.of_begun
    cases begins_of_begun begun with
    | exit => exact Docker.containerOf_exit isThere
    | _ => exact isThere

/-- A build that begins is still to start the entry. -/
theorem Starts.begun
    (starts : view.Starts id taskConfig)
    (fresh : view.progress pid = none)
    (begun : beginTaskCall config call view.shared = some shared) :
    ClearingView.Starts
      (view.place pid ⟨call, clearingProtocol.start call⟩ shared) id
      taskConfig := by
  obtain ⟨_, sameScheduler, _⟩ := beginTaskCall_keeps begun
  rcases starts with
      running | ⟨built, sameConfig, waiting | ⟨builder, step, left, found, stage⟩⟩
  · refine .inl ?_
    change shared.scheduler.isRunning id = true
    rw [sameScheduler]
    exact running
  · refine .inr ⟨built, sameConfig, ?_⟩
    cases begins_of_begun begun with
    | @build taskId begins =>
        by_cases same : (id, built) = (taskId, begins)
        · cases same
          exact .inr ⟨pid, _, _, Function.update_self .., .inl rfl⟩
        · exact .inl ((List.mem_erase_of_ne same).mpr waiting)
    | _ => exact .inl waiting
  · have different : builder ≠ pid := by
      rintro rfl
      rw [fresh] at found
      cases found
    exact .inr ⟨built, sameConfig, .inr ⟨builder, step, left,
      (Function.update_of_ne different ..).trans found, stage⟩⟩

/-- Another call begins. -/
theorem Updating.begun
    (updating : view.Updating updater id taskConfig)
    (begins :
      call ≠ .stopTask id ∧ ∀ newConfig, call ≠ .updateTask id newConfig)
    (fresh : view.progress pid = none)
    (begun : beginTaskCall config call view.shared = some shared) :
    ClearingView.Updating
      (view.place pid ⟨call, clearingProtocol.start call⟩ shared) updater id
      taskConfig := by
  obtain ⟨undisturbed, step, left, found, updated, starts⟩ := updating
  obtain ⟨sameTables, sameScheduler, _⟩ := beginTaskCall_keeps begun
  have different : updater ≠ pid := by
    rintro rfl
    rw [fresh] at found
    cases found
  refine ⟨undisturbed.begun (fun _ => begins) begun, step, left,
    (Function.update_of_ne different ..).trans found,
    updated.same (.of_eq sameTables sameScheduler), fun hasScheduled => ?_⟩
  exact (starts hasScheduled).begun fresh begun

/-- Every move under the condition leaves the update on its way. -/
theorem Updating.step
    {before after : ClearingView}
    {turn : Turn TaskCall TaskInput}
    (distinct : before.Distinct)
    (updating :
      before.progress updater ≠ none →
      before.Updating updater id taskConfig)
    (alone : before.UpdatedAlone updater id taskConfig turn)
    (moves :
      Protocol.Moves (taskServices config) clearingProtocol before turn after) :
    after.Distinct ∧
      (after.progress updater ≠ none →
        after.Updating updater id taskConfig) := by
  cases moves with
  | @invoke pid call shared fresh begun =>
      change beginTaskCall config call before.shared = some shared at begun
      refine ⟨distinct.begun, fun hasBegun => ?_⟩
      simp only [UpdatedAlone] at alone
      split at alone
      · rename_i isUpdater
        subst isUpdater
        obtain ⟨rfl, undisturbed⟩ := alone
        exact ⟨undisturbed.begun (fun other => (other rfl).elim) begun,
          _, _, Function.update_self .., trivial, nofun⟩
      · rename_i notUpdater
        have hadBegun : before.progress updater ≠ none := fun absent =>
          hasBegun
            ((Function.update_of_ne (Ne.symm notUpdater) ..).trans absent)
        exact (updating hadBegun).begun (alone hadBegun) fresh begun
  | @resume pid call phase op input answer shared present permitted answered =>
      obtain ⟨phase, childrenLeft⟩ := phase
      obtain ⟨unused, considerate⟩ := alone
      refine ⟨distinct.answered unused present permitted.1 answered,
        fun hasBegun => ?_⟩
      by_cases isUpdater : pid = updater
      · subst isUpdater
        have hadBegun : before.progress pid ≠ none := by
          rw [present]
          nofun
        exact (updating hadBegun).answered_updater distinct
          (considerate hadBegun) present permitted answered
      · have hadBegun : before.progress updater ≠ none := fun absent =>
          hasBegun
            ((Function.update_of_ne (Ne.symm isUpdater) ..).trans absent)
        exact (updating hadBegun).answered_other distinct
          (considerate hadBegun) present permitted answered isUpdater

theorem Distinct.initially :
    ClearingView.Distinct (.initial clearingProtocol .initial) := by
  rintro pid other runHandle otherHandle container ⟨_, _, present, _⟩
  cases present

end ClearingView

/--
In every interleaving of all task calls in which the update of an active task
begins undisturbed and no request stops the task: as long as its runs lose no
container to a forced removal, are launched while the image is there and reach
no limit, the task is active with the new config once the update has resolved,
and its entry carries the new schedule and runs or is still to be started.
-/
theorem updateTask_keepsActive
    (config : TaskServerConfig)
    (updater id : Nat)
    (taskConfig : LocalTaskConfig)
    (turns : List (Turn TaskCall TaskInput))
    (final : Interleaving TaskState clearingProtocol)
    (run :
      Run
        (Interleaving.Step (taskServices config)
          (ClearingView.UpdatedAlone updater id taskConfig))
        (.initial clearingProtocol .initial) turns final)
    (resolved : final.reply updater = some .done) :
    ∃ task ∈ final.shared.tables.tasks.rows,
      task.id = id ∧ task.active = true ∧ task.config.config = taskConfig ∧
        ∃ entry,
          final.shared.scheduler.entries id = some entry ∧
            entry.scheduleConfig = taskConfig.scheduleConfig ∧
            ClearingView.Starts final.view id taskConfig := by
  obtain ⟨moves, conforming⟩ :=
    Interleaving.moves_of_run conforms_clearing run
  obtain ⟨_, updating⟩ :=
    moves.invariant
      (fun view : ClearingView =>
        view.Distinct ∧
          (view.progress updater ≠ none →
            view.Updating updater id taskConfig))
      (fun _ _ _ holds taken =>
        ClearingView.Updating.step holds.1 holds.2 taken.1 taken.2)
      ⟨ClearingView.Distinct.initially, fun hasBegun => (hasBegun rfl).elim⟩
  obtain ⟨call, phase, present, finishes, _⟩ := conforming.finishes resolved
  obtain ⟨undisturbed, _, _, found, updated, starts⟩ :=
    updating (by rw [present]; nofun)
  rw [present] at found
  cases found
  cases finishes
  obtain ⟨⟨stored, hasConfig, sameConfig⟩, carries⟩ := updated
  obtain ⟨task, member, sameId, isActive⟩ := undisturbed.active
  obtain ⟨entry, isEntry, sameSchedule⟩ := Option.map_eq_some_iff.mp carries
  have storedConfig : task.config = stored :=
    TaskTables.HasConfig.eq ⟨task, member, sameId, rfl⟩ hasConfig
  exact ⟨task, member, sameId, isActive, by rw [storedConfig, sameConfig],
    entry, isEntry, sameSchedule, starts rfl⟩

/-- A check for calls that leave a task alone. -/
def leavesAlone (call : TaskCall) (phase : TaskPhase) (id : Nat) : Bool :=
  phase.plans != some id && phase.stops != some id &&
    match call, phase with
    | .stopTask taskId, .beginning => taskId != id
    | .updateTask taskId _, .beginning => taskId != id
    | .executor runHandle, _ => runHandle.taskId != id || phase.proceeds
    | _, _ => true

theorem leavesAlone_of_check
    {call : TaskCall}
    {phase : TaskPhase}
    {id : Nat}
    (passed : leavesAlone call phase id = true) :
    phase.LeavesAlone call id := by
  simp only [leavesAlone, Bool.and_eq_true, bne_iff_ne] at passed
  obtain ⟨⟨notPlanned, notStopped⟩, spares⟩ := passed
  refine ⟨notPlanned, notStopped, ?_, ?_⟩
  · rintro runHandle rfl ofTask
    simpa [ofTask] using spares
  · rintro rfl
    refine ⟨?_, fun newConfig => ?_⟩ <;>
    · rintro rfl
      simp at spares

/-- A check for runs that are served. -/
def isServed
    (state : TaskState)
    (runHandle : TaskRunHandle)
    (input : TaskInput) :
    TaskPhase → Bool
  | .launching _ =>
      (state.docker.images (buildTaskIdentifier runHandle.taskId)).isSome &&
        !input.refuses
  | .waiting _ _ => !input.refuses
  | .removing _ times =>
      !input.refuses &&
        times.all fun limit => !runHandle.runRank.reaches limit
  | _ => true

theorem served_of_check
    {state : TaskState}
    {runHandle : TaskRunHandle}
    {input : TaskInput}
    {phase : TaskPhase}
    (passed : isServed state runHandle input phase = true) :
    phase.Served state runHandle input := by
  cases phase with
  | launching taskConfig =>
      simpa [isServed, TaskPhase.Served] using passed
  | waiting container times =>
      exact fun _ => by simpa [isServed] using passed
  | removing container times =>
      obtain ⟨accepted, below⟩ := (Bool.and_eq_true _ _).mp passed
      refine ⟨fun _ => by simpa using accepted, ?_⟩
      rintro limit rfl
      simpa using below
  | _ => trivial

/-- The containers of the runs of a task, by calls below a bound. -/
def heldBelow (bound : Nat) (view : ClearingView) :
    List (TaskRunHandle × String) :=
  (List.range bound).filterMap fun pid =>
    match view.progress pid with
    | some ⟨.executor runHandle, (phase, _)⟩ =>
        phase.container?.map fun container => (runHandle, container)
    | _ => none

/-- A check for a task that nothing disturbs, among calls below a bound. -/
def undisturbedBelow (bound : Nat) (view : ClearingView) (id : Nat) : Bool :=
  (view.shared.tables.tasks.rows.any fun task =>
      task.id == id && task.active) &&
    ((List.range bound).all fun pid =>
      (view.progress pid).all fun progress =>
        leavesAlone progress.call progress.phase.1 id) &&
    (heldBelow bound view).all fun held =>
      (view.shared.docker.containerOf held.2).isSome

/-- A check for considerate answers. -/
def considerateBelow
    (bound : Nat)
    (view : ClearingView)
    (id : Nat)
    (taskConfig : LocalTaskConfig)
    (pid : Nat)
    (input : TaskInput) :
    Bool :=
  (match view.progress pid with
    | some ⟨.executor runHandle, (phase, _)⟩ =>
        isServed view.shared runHandle input phase
    | some ⟨.build _ built, (.beginning, _)⟩ =>
        built.config != taskConfig || input.succeeds
    | _ => true) &&
    match view.progress pid with
    | some ⟨_, (.clearing _ _, container :: _)⟩ =>
        (heldBelow bound view).all fun held => held.2 != container
    | some ⟨_, (.counting taskId limit, _)⟩ =>
        taskId != id ||
          decide (((view.shared.tables.runsOf id).length : Rat) < limit)
    | _ => true

/-- A check for updates of a task alone. -/
def updatedAloneBelow
    (bound updater id : Nat)
    (taskConfig : LocalTaskConfig)
    (view : ClearingView) :
    Turn TaskCall TaskInput → Bool
  | .invoke pid call =>
      if pid = updater then
        decide (call = .updateTask id taskConfig) &&
          undisturbedBelow bound view id
      else
        leavesAlone call .beginning id
  | .resume pid input =>
      (match input with
        | .container name =>
            (heldBelow bound view).all fun held => held.2 != name
        | _ => true) &&
        ((view.progress updater).isNone ||
          considerateBelow bound view id taskConfig pid input)

section Below

variable {config : Interleaving TaskState clearingProtocol}
variable {bound updater id : Nat}
variable {taskConfig : LocalTaskConfig}

/-- Whoever has a container is among those that are looked at. -/
theorem mem_heldBelow
    {pid : Nat}
    {runHandle : TaskRunHandle}
    {container : String}
    (below : config.Below bound)
    (holds : ClearingView.Holds config.view pid runHandle container) :
    (runHandle, container) ∈ heldBelow bound config.view := by
  obtain ⟨phase, childrenLeft, present, has⟩ := holds
  refine List.mem_filterMap.mpr ⟨pid, below.mem_range present, ?_⟩
  simp [present, has]

theorem undisturbed_of_below
    (below : config.Below bound)
    (passed : undisturbedBelow bound config.view id = true) :
    ClearingView.Undisturbed config.view updater id := by
  simp only [undisturbedBelow, Bool.and_eq_true] at passed
  obtain ⟨⟨isActive, alone⟩, there⟩ := passed
  constructor
  · obtain ⟨task, member, found⟩ := List.any_eq_true.mp isActive
    rw [Bool.and_eq_true, beq_iff_eq] at found
    exact ⟨task, member, found⟩
  · intro pid call phase childrenLeft _ present
    have checked :=
      List.all_eq_true.mp alone pid (below.mem_range present)
    rw [present] at checked
    exact leavesAlone_of_check checked
  · intro pid runHandle container _ holds
    exact List.all_eq_true.mp there _ (mem_heldBelow below holds)

theorem considerate_of_below
    {pid : Nat}
    {input : TaskInput}
    (below : config.Below bound)
    (passed :
      considerateBelow bound config.view id taskConfig pid input = true) :
    ClearingView.Considerate config.view id taskConfig pid input := by
  obtain ⟨serves, spares⟩ := (Bool.and_eq_true _ _).mp passed
  constructor
  · intro runHandle phase childrenLeft present _
    simp only [present] at serves
    exact served_of_check serves
  · intro call taskId newConfig container rest present _ other runHandle _
      holds
    simp only [present] at spares
    have different :=
      List.all_eq_true.mp spares _ (mem_heldBelow below holds)
    simp at different
  · intro call limit childrenLeft present
    simp only [present] at spares
    simpa using spares
  · intro built childrenLeft present sameConfig
    simp only [present] at serves
    simpa [sameConfig] using serves

theorem updatedAlone_of_below
    (below : config.Below bound)
    (turn : Turn TaskCall TaskInput)
    (passed :
      updatedAloneBelow bound updater id taskConfig config.view turn = true) :
    ClearingView.UpdatedAlone updater id taskConfig config.view turn := by
  cases turn with
  | invoke pid call =>
      simp only [updatedAloneBelow] at passed
      simp only [ClearingView.UpdatedAlone]
      split at passed
      · rename_i isUpdater
        rw [if_pos isUpdater]
        obtain ⟨isUpdate, undisturbed⟩ := (Bool.and_eq_true _ _).mp passed
        exact ⟨of_decide_eq_true isUpdate,
          undisturbed_of_below below undisturbed⟩
      · rename_i notUpdater
        rw [if_neg notUpdater]
        exact fun _ => (leavesAlone_of_check passed).begins rfl
  | resume pid input =>
      obtain ⟨unused, considerate⟩ := (Bool.and_eq_true _ _).mp passed
      constructor
      · rintro name rfl other runHandle holds
        have different :=
          List.all_eq_true.mp unused _ (mem_heldBelow below holds)
        simp at different
      · intro hasBegun
        rcases (Bool.or_eq_true _ _).mp considerate with absent | passed
        · exact (hasBegun (Option.isNone_iff_eq_none.mp absent)).elim
        · exact considerate_of_below below passed

end Below

/-- A run without a limit. -/
def onlyRun : TaskRunHandle :=
  { taskId := 1, runId := 1, runRank := .infinity }

/-- The task is created and built, and the container of a run is started. -/
def runningTurns : List (Turn TaskCall TaskInput) :=
  createTurns ++ buildTurns ++ registerTurns ++ launchTurns 4 onlyRun "first"

/-- The task is updated while it has these children. -/
def updateTurnsWith (pid : Nat) (names : List String) :
    List (Turn TaskCall TaskInput) :=
  [.invoke pid (.updateTask 1 hourly), .resume pid .done, .resume pid .done,
    .resume pid (.children names)] ++
    names.map (fun _ => .resume pid .done) ++
    List.replicate 5 (.resume pid .done)

/-- The container terminates, the task is updated, and the run is finished. -/
def survivingTurns : List (Turn TaskCall TaskInput) :=
  runningTurns ++ [.invoke 5 (.exit "first" 0), .resume 4 .done] ++
    updateTurnsWith 6 [] ++ List.replicate 3 (.resume 4 .done) ++
    [.invoke 7 (.build 1 { minutely with config := hourly }),
      .resume 7 .done, .resume 7 .done]

/-- A run that has terminated by the time of the update finishes after it. -/
theorem updateTask_keepsActive_finishing :
    ∃ final,
      Run
          (Interleaving.Step (taskServices lenientServer)
            (ClearingView.UpdatedAlone 6 1 hourly))
          (.initial clearingProtocol .initial) survivingTurns final ∧
        final.reply 4 = some .done ∧
        ∃ task ∈ final.shared.tables.tasks.rows,
          task.id = 1 ∧ task.active = true ∧ task.config.config = hourly ∧
            ∃ entry,
              final.shared.scheduler.entries 1 = some entry ∧
                entry.scheduleConfig = hourly.scheduleConfig ∧
                ClearingView.Starts final.view 1 hourly := by
  have run
      (final : Interleaving TaskState clearingProtocol)
      (executed :
        (Interleaving.initial clearingProtocol .initial).executeIf
            (taskServices lenientServer) (updatedAloneBelow 8 6 1 hourly)
            survivingTurns =
          some final) :
      Run
        (Interleaving.Step (taskServices lenientServer)
          (ClearingView.UpdatedAlone 6 1 hourly))
        (.initial clearingProtocol .initial) survivingTurns final :=
    Interleaving.run_of_executeIf_below
      (fun _ below turn passed => updatedAlone_of_below below turn passed)
      (fun _ _ => rfl) (by decide) executed
  exact ⟨_, run _ rfl, rfl,
    updateTask_keepsActive _ _ _ _ _ _ (run _ rfl) rfl⟩

/--
The update removes the container that a run waits for: the executor of the run
fails and stops the task.
-/
theorem updateTask_deactivates :
    ∃ final,
      Run (Interleaving.Step (taskServices lenientServer) fun _ _ => True)
          (.initial clearingProtocol .initial)
          (runningTurns ++ updateTurnsWith 6 ["first"] ++
            [.resume 4 (.refused "No such container"),
              .resume 4 (.refused "No such container"), .resume 4 .done,
              .resume 4 .done, .resume 4 .done, .resume 4 (.children []),
              .resume 4 .done, .resume 4 .done])
          final ∧
        final.reply 6 = some .done ∧
        final.reply 4 = some .done ∧
        final.shared.tables.tasks.rows.map Task.active = [false] ∧
        final.shared.scheduler.isRunning 1 = false :=
  ⟨_, Interleaving.run_of_foldlM rfl, rfl, rfl, rfl, rfl⟩

end Prescott
