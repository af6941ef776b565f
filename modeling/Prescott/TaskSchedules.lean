import Prescott.CronActivity
import Prescott.TaskTransitions

namespace Prescott

/-!
# The schedule of a task

The schedule of a task is stored in its row and carried by its cron entry.
The two agree while no two calls work on the registration of one task at the
same time, whatever builds, callbacks and executors do meanwhile.
-/

namespace CronScheduler

variable {scheduler : CronScheduler}
variable {taskId other : Nat}
variable {scheduleConfig : String}

/-- The schedule that the entry of a task carries. -/
def scheduleOf (scheduler : CronScheduler) (taskId : Nat) : Option String :=
  (scheduler.entries taskId).map CronEntry.scheduleConfig

theorem scheduleOf_of_entry
    {entry : CronEntry}
    (found : scheduler.entries taskId = some entry) :
    scheduler.scheduleOf taskId = some entry.scheduleConfig := by
  simp [scheduleOf, found]

theorem exists_iff_scheduleOf :
    scheduler.exists? taskId = (scheduler.scheduleOf taskId).isSome := by
  simp [exists?, scheduleOf]

@[simp] theorem scheduleOf_scheduleTask_self :
    (scheduler.scheduleTask taskId scheduleConfig).scheduleOf taskId =
      some scheduleConfig := by
  simp [scheduleOf, scheduleTask]

theorem scheduleOf_scheduleTask_other
    (different : taskId ≠ other) :
    (scheduler.scheduleTask other scheduleConfig).scheduleOf taskId =
      scheduler.scheduleOf taskId := by
  simp [scheduleOf, scheduleTask, Function.update_of_ne different]

@[simp] theorem scheduleOf_deleteTask_self :
    (scheduler.deleteTask taskId).scheduleOf taskId = none := by
  simp [scheduleOf, deleteTask, update]

theorem scheduleOf_deleteTask_other
    (different : taskId ≠ other) :
    (scheduler.deleteTask other).scheduleOf taskId =
      scheduler.scheduleOf taskId := by
  simp [scheduleOf, deleteTask, update, Function.update_of_ne different]

/-- An entry that is started or stopped carries the same schedule. -/
@[simp] theorem scheduleOf_start :
    (scheduler.start other).scheduleOf taskId =
      scheduler.scheduleOf taskId := by
  by_cases same : taskId = other
  · subst same
    cases found : scheduler.entries taskId <;>
      simp [scheduleOf, start, update, found]
  · simp [scheduleOf, start, update, Function.update_of_ne same]

@[simp] theorem scheduleOf_stop :
    (scheduler.stop other).scheduleOf taskId =
      scheduler.scheduleOf taskId := by
  by_cases same : taskId = other
  · subst same
    cases found : scheduler.entries taskId <;>
      simp [scheduleOf, stop, update, found]
  · simp [scheduleOf, stop, update, Function.update_of_ne same]

end CronScheduler

/-- There is a row of the task, and it has this config. -/
def TaskTables.HasConfig
    (tables : TaskTables)
    (taskId : Nat)
    (taskConfig : TaskConfigDto) :
    Prop :=
  ∃ task ∈ tables.tasks.rows, task.id = taskId ∧ task.config = taskConfig

namespace TaskTables.HasConfig

variable {tables after : TaskTables}
variable {taskId id : Nat}
variable {taskConfig : TaskConfigDto}

theorem has (stored : tables.HasConfig taskId taskConfig) :
    tables.Has taskId :=
  let ⟨task, member, same, _⟩ := stored
  ⟨task, member, same⟩

theorem insertTask
    {data : NewTask}
    (inserted : tables.insertTask data = .ok (id, after))
    (stored : tables.HasConfig taskId taskConfig) :
    after.HasConfig taskId taskConfig :=
  let ⟨task, member, same, sameConfig⟩ := stored
  ⟨task, (mem_insertTask inserted).mpr (.inl member), same, sameConfig⟩

theorem setActive
    {value : Bool}
    (stored : tables.HasConfig taskId taskConfig) :
    (tables.setActive id value).HasConfig taskId taskConfig := by
  obtain ⟨task, member, same, sameConfig⟩ := stored
  refine ⟨_, mem_setActive.mpr ⟨task, member, rfl⟩, ?_⟩
  split
  · exact ⟨same, sameConfig⟩
  · exact ⟨same, sameConfig⟩

theorem deleteTask
    (other : id ≠ taskId)
    (stored : tables.HasConfig taskId taskConfig) :
    (tables.deleteTask id).HasConfig taskId taskConfig := by
  obtain ⟨task, member, same, sameConfig⟩ := stored
  refine ⟨task, Table.mem_rows_deleteWhere.mpr ⟨member, ?_⟩, same,
    sameConfig⟩
  rw [beq_eq_false_iff_ne, same]
  exact Ne.symm other

/-- The other rows keep their configs. -/
theorem setConfig
    {newConfig : TaskConfigDto}
    (other : id ≠ taskId)
    (stored : tables.HasConfig taskId taskConfig) :
    (tables.setConfig id newConfig).HasConfig taskId taskConfig := by
  obtain ⟨task, member, same, sameConfig⟩ := stored
  refine ⟨_, mem_setConfig.mpr ⟨task, member, rfl⟩, ?_⟩
  rw [if_neg (by rw [beq_iff_eq, same]; exact Ne.symm other)]
  exact ⟨same, sameConfig⟩

/-- The row has the config that it is given. -/
theorem of_setConfig
    (has : tables.Has id) :
    (tables.setConfig id taskConfig).HasConfig id taskConfig := by
  obtain ⟨task, member, same⟩ := has
  refine ⟨_, mem_setConfig.mpr ⟨task, member, rfl⟩, ?_⟩
  rw [if_pos (beq_iff_eq.mpr same)]
  exact ⟨same, rfl⟩

/-- A task has one config. -/
theorem eq
    {other : TaskConfigDto}
    (stored : tables.HasConfig taskId taskConfig)
    (storedOther : tables.HasConfig taskId other) :
    taskConfig = other := by
  obtain ⟨task, member, same, rfl⟩ := stored
  obtain ⟨_, otherMember, sameOther, rfl⟩ := storedOther
  rw [Table.eq_of_key member otherMember (same.trans sameOther.symm)]

end TaskTables.HasConfig

theorem TaskTables.has_iff
    {tables : TaskTables}
    {id : Nat} :
    tables.Has id ↔ ∃ taskConfig, tables.HasConfig id taskConfig :=
  ⟨fun ⟨task, member, same⟩ => ⟨_, task, member, same, rfl⟩,
    fun ⟨_, stored⟩ => stored.has⟩

/-- The task whose registration an operation changes. -/
def TaskOp.plans : TaskOp → Option Nat
  | .schedulerSchedule id _ | .schedulerDelete id | .updateTaskConfig id _
  | .deleteTaskById id => some id
  | _ => none

/-- The task on whose registration a call works in a phase. -/
def TaskPhase.plans : TaskPhase → Option Nat
  | .checkingEntry id _ | .scheduling id _ | .dispatching id _
  | .storing id _ | .unregistering id _ | .clearing id _ | .flushing id
  | .deletingRow id => some id
  | _ => none

namespace TaskState

/-- The entry of the task carries the schedule of its row. -/
def AgreesOn (state : TaskState) (id : Nat) : Prop :=
  ∀ scheduled,
    state.scheduler.scheduleOf id = some scheduled →
    ∃ taskConfig,
      state.tables.HasConfig id taskConfig ∧
        taskConfig.config.scheduleConfig = scheduled

/-- The entry of the task carries what it did, and the row has what it had. -/
structure SameFor (id : Nat) (before after : TaskState) : Prop where
  scheduleOf :
    after.scheduler.scheduleOf id = before.scheduler.scheduleOf id
  hasConfig :
    ∀ taskConfig,
      before.tables.HasConfig id taskConfig →
      after.tables.HasConfig id taskConfig

variable {config : TaskServerConfig}
variable {op : TaskOp}
variable {input : TaskInput}
variable {before after : TaskState}
variable {answer : Except AppError op.Result}
variable {id : Nat}
variable {taskConfig : TaskConfigDto}

theorem SameFor.has
    (same : SameFor id before after)
    (has : before.tables.Has id) :
    after.tables.Has id :=
  let ⟨_, stored⟩ := TaskTables.has_iff.mp has
  (same.hasConfig _ stored).has

theorem SameFor.agreesOn
    (same : SameFor id before after)
    (agrees : before.AgreesOn id) :
    after.AgreesOn id := by
  intro scheduled carried
  rw [same.scheduleOf] at carried
  obtain ⟨taskConfig, stored, sameSchedule⟩ := agrees scheduled carried
  exact ⟨taskConfig, same.hasConfig taskConfig stored, sameSchedule⟩

theorem AgreesOn.of_none
    (noEntry : after.scheduler.scheduleOf id = none) :
    after.AgreesOn id := by
  intro scheduled carried
  rw [noEntry] at carried
  cases carried

theorem AgreesOn.of_stored
    (carries :
      after.scheduler.scheduleOf id = some taskConfig.config.scheduleConfig)
    (stored : after.tables.HasConfig id taskConfig) :
    after.AgreesOn id := by
  intro scheduled carried
  rw [carries] at carried
  exact ⟨taskConfig, stored, Option.some.inj carried⟩

theorem SameFor.of_eq
    (sameTables : after.tables = before.tables)
    (sameScheduler : after.scheduler = before.scheduler) :
    SameFor id before after := by
  constructor
  · rw [sameScheduler]
  · rw [sameTables]
    exact fun _ stored => stored

/-- An operation leaves the registrations that it does not change. -/
theorem SameFor.of_answered
    (answered : taskHost config op input before = some (answer, after))
    (notPlanned : op.plans ≠ some id) :
    SameFor id before after := by
  have keeps := taskHost_keeps answered
  cases op with
  | insertTask data =>
      rcases TaskState.attempt_eq answered with
          ⟨_, _, inserted, _, rfl⟩ | ⟨_, _, _, rfl⟩
      · exact ⟨rfl, fun _ stored => stored.insertTask inserted⟩
      · exact ⟨rfl, fun _ stored => stored⟩
  | updateTaskConfig other taskConfig =>
      have different : other ≠ id := fun same => notPlanned (congrArg some same)
      cases answered
      exact ⟨rfl, fun _ stored => stored.setConfig different⟩
  | deleteTaskById other =>
      have different : other ≠ id := fun same => notPlanned (congrArg some same)
      cases answered
      exact ⟨rfl, fun _ stored => stored.deleteTask different⟩
  | setTaskActive =>
      cases answered
      exact ⟨rfl, fun _ stored => stored.setActive⟩
  | schedulerSchedule other scheduled =>
      have different : id ≠ other :=
        fun same => notPlanned (congrArg some same.symm)
      simp only [taskHost] at answered
      split at answered
      · cases answered
        exact ⟨CronScheduler.scheduleOf_scheduleTask_other different,
          fun _ stored => stored⟩
      · cases answered
        exact ⟨rfl, fun _ stored => stored⟩
  | schedulerDelete other =>
      have different : id ≠ other :=
        fun same => notPlanned (congrArg some same.symm)
      cases answered
      exact ⟨CronScheduler.scheduleOf_deleteTask_other different,
        fun _ stored => stored⟩
  | schedulerStop =>
      cases answered
      exact ⟨CronScheduler.scheduleOf_stop, fun _ stored => stored⟩
  | schedulerStart =>
      cases answered
      exact ⟨CronScheduler.scheduleOf_start, fun _ stored => stored⟩
  | _ =>
      constructor
      · rw [keeps.scheduler rfl]
      · unfold TaskTables.HasConfig
        rw [keeps.tasks rfl]
        exact fun _ stored => stored

end TaskState

/-- The call registers a task or takes a registration back. -/
def TaskCall.registers : TaskCall → Bool
  | .createTask _ _ _ | .deleteTask _ | .startTask _ | .updateTask _ _ => true
  | _ => false

/-- The call updates the task. -/
def TaskCall.Updates (call : TaskCall) (id : Nat) : Prop :=
  ∃ taskConfig, call = .updateTask id taskConfig

/-- What holds of entry and row while a call works on a registration. -/
def TaskPhase.Prepared
    (call : TaskCall)
    (state : TaskState)
    (id : Nat) :
    TaskPhase → Prop
  | .checkingEntry _ taskConfig =>
      state.AgreesOn id ∧ state.tables.Has id ∧
        (state.tables.HasConfig id taskConfig ∨ call.Updates id) ∧
        (state.scheduler.scheduleOf id = none ∨ call = .startTask id)
  | .scheduling _ taskConfig =>
      state.tables.Has id ∧
        (state.tables.HasConfig id taskConfig ∨ call.Updates id) ∧
        state.scheduler.scheduleOf id = none
  | .dispatching _ taskConfig =>
      state.tables.Has id ∧
        (state.tables.HasConfig id taskConfig ∨ call.Updates id) ∧
        state.scheduler.scheduleOf id =
          some taskConfig.config.scheduleConfig
  | .storing _ taskConfig =>
      state.tables.Has id ∧
        state.scheduler.scheduleOf id =
          some taskConfig.config.scheduleConfig
  | .unregistering _ taskConfig =>
      state.AgreesOn id ∧ state.tables.Has id ∧
        (taskConfig.isSome = true → call.Updates id)
  | .clearing _ taskConfig =>
      state.tables.Has id ∧
        (taskConfig.isSome = true → call.Updates id) ∧
        state.scheduler.scheduleOf id = none
  | .flushing _ | .deletingRow _ => state.scheduler.scheduleOf id = none
  | _ => state.AgreesOn id

namespace TaskPhase

variable {config : TaskServerConfig}
variable {call : TaskCall}
variable {phase next : TaskPhase}
variable {op : TaskOp}
variable {input : TaskInput}
variable {before after : TaskState}
variable {answer : Except AppError op.Result}
variable {id taskId : Nat}
variable {taskConfig : TaskConfigDto}

/-- A call changes no registration but the one it works on. -/
theorem plans_of_permits
    (permitted : phase.permits call op)
    (planned : op.plans = some id) :
    phase.plans = some id := by
  cases op <;> cases planned
  all_goals
    cases phase <;> simp [permits] at permitted
    case beginning => cases call <;> simp [TaskCall.firstOp] at permitted
    all_goals simp [plans, permitted]

/-- A call goes on working on the same registration, or it is done with it. -/
theorem plans_advance
    (planned : phase.plans = some id)
    (permitted : phase.permits call op) :
    (phase.advance call op answer).plans = some id ∨
      (phase.advance call op answer).plans = none := by
  have advances := advances_advance answer permitted
  generalize phase.advance call op answer = next at advances ⊢
  cases advances with
  | failed fails =>
      cases fails with
      | same => exact .inl planned
      | stopping => exact .inr rfl
      | _ => exact .inr rfl
  | present | dispatched =>
      cases call with
      | updateTask => exact .inl planned
      | _ => exact .inr rfl
  | _ =>
      first
      | exact .inr rfl
      | exact .inl planned
      | cases planned

theorem Prepared.agreesOn
    (prepared : phase.Prepared call after id)
    (notPlanned : phase.plans = none) :
    after.AgreesOn id := by
  cases phase <;> first | exact prepared | cases notPlanned

/-- What is prepared stays so while another registration is worked on. -/
theorem Prepared.same
    (prepared : phase.Prepared call before id)
    (same : TaskState.SameFor id before after) :
    phase.Prepared call after id := by
  have hasConfig := same.hasConfig
  cases phase <;>
    simp only [Prepared, same.scheduleOf] at prepared ⊢
  case checkingEntry =>
    exact ⟨same.agreesOn prepared.1, same.has prepared.2.1,
      prepared.2.2.1.imp_left (hasConfig _), prepared.2.2.2⟩
  case scheduling =>
    exact ⟨same.has prepared.1, prepared.2.1.imp_left (hasConfig _),
      prepared.2.2⟩
  case dispatching =>
    exact ⟨same.has prepared.1, prepared.2.1.imp_left (hasConfig _),
      prepared.2.2⟩
  case storing => exact ⟨same.has prepared.1, prepared.2⟩
  case unregistering =>
    exact ⟨same.agreesOn prepared.1, same.has prepared.2.1, prepared.2.2⟩
  case clearing => exact ⟨same.has prepared.1, prepared.2⟩
  case flushing | deletingRow => exact prepared
  all_goals exact same.agreesOn prepared

/-- A call that has registered its task is prepared for what is left. -/
theorem prepared_afterSchedule
    (has : after.tables.Has id)
    (stored : after.tables.HasConfig id taskConfig ∨ call.Updates id)
    (carries :
      after.scheduler.scheduleOf id =
        some taskConfig.config.scheduleConfig) :
    (afterSchedule call taskId taskConfig).Prepared call after id := by
  cases call with
  | updateTask => exact ⟨has, carries⟩
  | _ =>
      rcases stored with stored | ⟨_, isUpdate⟩
      · exact .of_stored carries stored
      · cases isUpdate

/-- The work on a registration prepares its next phase. -/
theorem Prepared.advance
    (prepared : phase.Prepared call before id)
    (planned : phase.plans = some id)
    (permitted : phase.permits call op)
    (answered : taskHost config op input before = some (answer, after)) :
    (phase.advance call op answer).Prepared call after id := by
  cases phase with
  | checkingEntry taskId taskConfig =>
      cases planned
      obtain ⟨agrees, has, stored, absent⟩ := prepared
      cases permitted
      cases answered
      cases isEntry : before.scheduler.exists? id with
      | true =>
          rw [CronScheduler.exists_iff_scheduleOf] at isEntry
          rcases absent with absent | rfl
          · rw [absent] at isEntry
            cases isEntry
          · exact agrees
      | false =>
          rw [CronScheduler.exists_iff_scheduleOf] at isEntry
          exact ⟨has, stored, Option.not_isSome_iff_eq_none.mp (by simp [isEntry])⟩
  | scheduling taskId taskConfig =>
      cases planned
      obtain ⟨has, stored, absent⟩ := prepared
      cases permitted
      simp only [taskHost] at answered
      split at answered
      · cases answered
        exact ⟨has, stored, CronScheduler.scheduleOf_scheduleTask_self⟩
      · cases answered
        exact .of_none absent
  | dispatching taskId taskConfig =>
      cases planned
      obtain ⟨has, stored, carries⟩ := prepared
      cases permitted
      cases answered
      exact prepared_afterSchedule has stored carries
  | storing taskId taskConfig =>
      cases planned
      obtain ⟨has, carries⟩ := prepared
      cases permitted
      cases answered
      exact .of_stored carries (.of_setConfig has)
  | unregistering taskId taskConfig =>
      cases planned
      obtain ⟨agrees, has, updates⟩ := prepared
      cases permitted
      cases answered
      exact ⟨has, updates, CronScheduler.scheduleOf_deleteTask_self⟩
  | clearing taskId taskConfig =>
      cases planned
      obtain ⟨has, updates, absent⟩ := prepared
      have same : TaskState.SameFor id before after := by
        refine .of_answered answered fun planned => ?_
        rcases permitted with rfl | ⟨_, rfl⟩ | rfl <;> cases planned
      have has := same.has has
      rw [← same.scheduleOf] at absent
      have advances := advances_advance answer permitted
      generalize TaskPhase.advance call _ op answer = next at advances ⊢
      cases advances with
      | failed fails =>
          cases fails with
          | same => exact ⟨has, updates, absent⟩
          | _ => exact .of_none absent
      | clearing => exact ⟨has, updates, absent⟩
      | clearedForUpdate =>
          exact ⟨.of_none absent, has, .inr (updates rfl), .inl absent⟩
      | clearedForDelete => exact absent
      | _ => exact .of_none absent
  | flushing taskId =>
      cases planned
      rcases permitted with rfl | rfl
      · cases answered
        exact prepared
      · cases answered
        exact prepared
  | deletingRow taskId =>
      cases planned
      cases permitted
      cases answered
      exact .of_none prepared
  | _ =>
      cases planned

/-- Only a call that registers comes to work on a registration. -/
theorem registers_of_plans
    (registers : ∀ taskId, phase.plans = some taskId → call.registers = true)
    (planned : (phase.advance call op answer).plans = some id)
    (permitted : phase.permits call op) :
    call.registers = true := by
  by_cases own : phase.plans = some id
  · exact registers id own
  have advances := advances_advance answer permitted
  generalize phase.advance call op answer = next at advances planned
  cases advances with
  | failed fails =>
      cases fails with
      | same => exact registers id planned
      | _ => cases planned
  | deletes isCall | updates isCall | starts isCall =>
      subst isCall
      rfl
  | inserted =>
      obtain ⟨_, _, _, rfl, _⟩ := permitted
      rfl
  | _ =>
      first
      | exact registers _ rfl
      | cases planned

/-- A call that begins to work on a registration finds it in agreement. -/
theorem prepared_of_enters
    (notPlanned : phase.plans ≠ some id)
    (planned : (phase.advance call op answer).plans = some id)
    (permitted : phase.permits call op)
    (answered : taskHost config op input before = some (answer, after))
    (agrees : before.AgreesOn id) :
    (phase.advance call op answer).Prepared call after id := by
  have advances := advances_advance answer permitted
  generalize phase.advance call op answer = next at advances planned ⊢
  cases advances with
  | failed fails =>
      cases fails with
      | same => exact (notPlanned planned).elim
      | _ => cases planned
  | deletes isCall =>
      cases planned
      subst isCall
      obtain ⟨member, sameId, rfl⟩ := TaskState.task_of_found answered
      exact ⟨agrees, ⟨_, member, sameId⟩, nofun⟩
  | updates isCall =>
      cases planned
      subst isCall
      obtain ⟨member, sameId, rfl⟩ := TaskState.task_of_found answered
      exact ⟨agrees, ⟨_, member, sameId⟩, fun _ => ⟨_, rfl⟩⟩
  | starts isCall =>
      cases planned
      subst isCall
      obtain ⟨member, sameId, rfl⟩ := TaskState.task_of_found answered
      exact ⟨agrees, ⟨_, member, sameId⟩,
        .inl ⟨_, member, sameId, rfl⟩, .inr rfl⟩
  | inserted =>
      cases planned
      obtain ⟨_, _, _, rfl, _⟩ := permitted
      rcases TaskState.attempt_eq answered with
          ⟨_, tables, inserted, shape, rfl⟩ | ⟨_, _, rejected, _⟩
      · cases shape
        obtain ⟨sameId, _⟩ := TaskTables.nextId_insertTask inserted
        have member := (TaskTables.mem_insertTask inserted).mpr (.inr rfl)
        have stored : tables.HasConfig id _ :=
          ⟨_, member, sameId.symm, rfl⟩
        have absent : before.scheduler.scheduleOf id = none := by
          by_contra present
          obtain ⟨scheduled, carried⟩ := Option.ne_none_iff_exists'.mp present
          obtain ⟨_, ⟨old, oldMember, oldId, _⟩, _⟩ := agrees scheduled carried
          have below := before.tables.tasks.keysBelow old oldMember
          exact Nat.ne_of_lt below (oldId.trans sameId)
        exact ⟨.of_none absent, stored.has, .inl stored, .inl absent⟩
      · cases rejected
  | present | dispatched =>
      cases call with
      | updateTask => exact (notPlanned planned).elim
      | _ => cases planned
  | unregistered | clearing | clearedForUpdate | clearedForDelete | flushing
  | flushed | missing | scheduled =>
      exact (notPlanned planned).elim
  | _ =>
      cases planned

end TaskPhase

namespace TaskView

/-- No two calls work on the registration of one task at the same time. -/
def OneByOne (view : TaskView) : Prop :=
  ∀ pid other phase otherPhase id,
    view.InPhase pid phase →
    view.InPhase other otherPhase →
    phase.plans = some id →
    otherPhase.plans = some id →
    pid = other

/-- Entries and rows agree, but for the work in progress. -/
structure Registered (view : TaskView) : Prop where
  working :
    ∀ pid call phase id,
      view.progress pid = some ⟨call, phase⟩ →
      phase.plans = some id →
      phase.Prepared call view.shared id
  idle :
    ∀ id,
      (∀ pid phase, view.InPhase pid phase → phase.plans ≠ some id) →
      view.shared.AgreesOn id

variable {config : TaskServerConfig}
variable {before after view : TaskView}
variable {pid : Nat}

/-- The beginning of a call changes no registration. -/
theorem Registered.begun
    {call : TaskCall}
    {shared : TaskState}
    (registered : view.Registered)
    (fresh : view.progress pid = none)
    (begins : beginTaskCall config call view.shared = some shared) :
    TaskView.Registered
      (view.place pid ⟨call, taskProtocol.start call⟩ shared) := by
  have same (id : Nat) : TaskState.SameFor id view.shared shared :=
    .of_eq (beginTaskCall_keeps begins).1 (beginTaskCall_keeps begins).2.1
  constructor
  · intro other otherCall phase id present planned
    rcases Protocol.View.place_cases present with ⟨_, shape⟩ | ⟨_, earlier⟩
    · cases shape
      cases call <;> cases planned
    · have prepared :=
        registered.working other otherCall phase id earlier planned
      exact prepared.same (same id)
  · intro id notPlanned
    refine (same id).agreesOn (registered.idle id ?_)
    intro other phase inPhase
    refine notPlanned other phase (inPhase.place ?_)
    rintro rfl
    obtain ⟨_, present⟩ := inPhase
    rw [fresh] at present
    cases present

/-- An operation leaves a registration in agreement, or prepares its call. -/
theorem Registered.answered
    {call : TaskCall}
    {phase : TaskPhase}
    {op : TaskOp}
    {input : TaskInput}
    {answer : Except AppError op.Result}
    {shared : TaskState}
    (registered : view.Registered)
    (oneBefore : view.OneByOne)
    (present : view.progress pid = some ⟨call, phase⟩)
    (permitted : phase.permits call op)
    (answered :
      taskHost config op input view.shared = some (answer, shared))
    (oneAfter :
      TaskView.OneByOne
        (view.place pid ⟨call, phase.advance call op answer⟩ shared)) :
    TaskView.Registered
      (view.place pid ⟨call, phase.advance call op answer⟩ shared) := by
  have same
      (id : Nat)
      (notPlanned : phase.plans ≠ some id) :
      TaskState.SameFor id view.shared shared :=
    .of_answered answered fun planned =>
      notPlanned (TaskPhase.plans_of_permits permitted planned)
  constructor
  · intro other otherCall otherPhase id found planned
    rcases Protocol.View.place_cases found with
        ⟨_, shape⟩ | ⟨different, earlier⟩
    · cases shape
      by_cases own : phase.plans = some id
      · have prepared := registered.working pid call phase id present own
        exact prepared.advance own permitted answered
      · refine TaskPhase.prepared_of_enters own planned permitted answered
          (registered.idle id ?_)
        intro second secondPhase inPhase secondPlans
        have different : second ≠ pid := by
          rintro rfl
          rw [inPhase.eq present] at secondPlans
          exact own secondPlans
        exact different
          (oneAfter second pid _ _ id (inPhase.place different)
            Protocol.View.inPhase_place secondPlans planned)
    · have prepared :=
        registered.working other otherCall otherPhase id earlier planned
      refine prepared.same (same id fun own => different ?_)
      exact oneBefore other pid _ _ id ⟨_, earlier⟩ ⟨_, present⟩ planned own
  · intro id notPlanned
    by_cases own : phase.plans = some id
    · have prepared :=
        (registered.working pid call phase id present own).advance own
          permitted answered
      rcases TaskPhase.plans_advance own permitted with planned | done
      · exact (notPlanned pid _ Protocol.View.inPhase_place planned).elim
      · exact prepared.agreesOn done
    · refine (same id own).agreesOn (registered.idle id ?_)
      intro other otherPhase inPhase
      by_cases isOwn : other = pid
      · subst isOwn
        rw [inPhase.eq present]
        exact own
      · exact notPlanned other otherPhase (inPhase.place isOwn)

/-- Every move between states without overlapping work keeps what is registered. -/
theorem Registered.step
    {turn : Turn TaskCall TaskInput}
    (registered : before.Registered)
    (oneBefore : before.OneByOne)
    (oneAfter : after.OneByOne)
    (moves :
      Protocol.Moves (taskServices config) taskProtocol before turn after) :
    after.Registered := by
  cases moves with
  | invoke fresh begins =>
      exact registered.begun fresh begins
  | resume present permitted answered =>
      exact registered.answered oneBefore present permitted answered oneAfter

theorem Registered.initially :
    TaskView.Registered (.initial taskProtocol .initial) := by
  constructor
  · intro _ _ _ _ present
    cases present
  · exact fun id _ => .of_none rfl

end TaskView

/-- Whoever works on a registration is a call that registers. -/
theorem registers_of_run
    {config : TaskServerConfig}
    {allowed : TaskView → Turn TaskCall TaskInput → Prop}
    {turns : List (Turn TaskCall TaskInput)}
    {final : TaskView}
    (moves :
      Run
        (fun before turn after =>
          allowed before turn ∧
            Protocol.Moves (taskServices config) taskProtocol before turn
              after)
        (.initial taskProtocol .initial) turns final)
    {pid id : Nat}
    {call : TaskCall}
    {phase : TaskPhase}
    (present : final.progress pid = some ⟨call, phase⟩)
    (planned : phase.plans = some id) :
    call.registers = true := by
  refine Protocol.progress_of_moves
    (fun call (phase : TaskPhase) =>
      ∀ id, phase.plans = some id → call.registers = true)
    ?_ ?_ moves present id planned
  · intro call id planned
    cases call <;> cases planned
  · intro call phase op answer registers permitted id planned
    exact TaskPhase.registers_of_plans registers planned permitted

/-- No call that registers a task or takes a registration back is in progress. -/
def RegistrationsSettled (config : Interleaving TaskState taskProtocol) :
    Prop :=
  ∀ pid process,
    config.processes pid = some process →
    process.call.registers = true →
    process.residual.isSettled = true

/-- Once the registrations have settled, entries and rows agree. -/
theorem agreesOn_of_run
    {config : TaskServerConfig}
    {turns : List (Turn TaskCall TaskInput)}
    {final : Interleaving TaskState taskProtocol}
    (run :
      Run
        (Interleaving.Step (taskServices config) fun (view : TaskView) _ =>
          view.OneByOne)
        (.initial taskProtocol .initial) turns final)
    (settled : RegistrationsSettled final)
    (id : Nat) :
    final.shared.AgreesOn id := by
  obtain ⟨moves, conforming⟩ :=
    Interleaving.moves_of_run TaskPhase.conforms_taskBody run
  have idle
      (pid : Nat)
      (phase : TaskPhase)
      (id : Nat)
      (inPhase : final.view.InPhase pid phase) :
      phase.plans ≠ some id := by
    intro planned
    obtain ⟨call, found⟩ := inPhase
    have registers := registers_of_run moves found planned
    obtain ⟨process, present, shape⟩ := Option.map_eq_some_iff.mp found
    cases shape
    obtain ⟨_, isSettled⟩ :=
      conforming.settled present (settled pid process present registers)
    rw [isSettled] at planned
    cases planned
  have registered :=
    moves.invariant (fun view => TaskView.OneByOne view → view.Registered)
      (fun before _ after registered taken one =>
        (registered taken.1).step taken.1 one taken.2)
      (fun _ => TaskView.Registered.initially)
  refine (registered ?_).idle id fun pid phase => idle pid phase id
  intro pid other phase otherPhase id inPhase _ planned _
  exact (idle pid phase id inPhase planned).elim

/-- The task on whose registration a call works. -/
def TaskView.planned (view : TaskView) (pid : Nat) : Option Nat :=
  (view.progress pid).bind fun progress => TaskPhase.plans progress.phase

/-- A check that the calls below a bound do not overlap. -/
def oneByOneBelow (bound : Nat) (view : TaskView) : Bool :=
  (List.range bound).all fun pid =>
    (List.range bound).all fun other =>
      pid == other || (view.planned pid).isNone ||
        view.planned pid != view.planned other

theorem oneByOne_of_below
    {config : Interleaving TaskState taskProtocol}
    {bound : Nat}
    (below : config.Below bound)
    (passed : oneByOneBelow bound config.view = true) :
    TaskView.OneByOne config.view := by
  have inRange
      (pid : Nat)
      (phase : TaskPhase)
      (inPhase : config.view.InPhase pid phase) :
      pid ∈ List.range bound :=
    let ⟨_, present⟩ := inPhase
    below.mem_range present
  have planned
      (pid id : Nat)
      (phase : TaskPhase)
      (inPhase : config.view.InPhase pid phase)
      (plans : phase.plans = some id) :
      TaskView.planned config.view pid = some id := by
    obtain ⟨_, found⟩ := inPhase
    simp [TaskView.planned, found, plans]
  intro pid other phase otherPhase id inPhase otherInPhase plans otherPlans
  have pairs := List.all_eq_true.mp passed pid (inRange pid phase inPhase)
  have passed :=
    List.all_eq_true.mp pairs other (inRange other otherPhase otherInPhase)
  rw [planned pid id phase inPhase plans,
    planned other id otherPhase otherInPhase otherPlans] at passed
  simpa using passed

/-- Turns that pass the check are a run without overlapping work. -/
theorem run_of_oneByOneBelow
    {config : TaskServerConfig}
    {turns : List (Turn TaskCall TaskInput)}
    {final : Interleaving TaskState taskProtocol}
    (bound : Nat)
    (turnsBelow : ∀ turn ∈ turns, turn.pid < bound)
    (executed :
      (Interleaving.initial taskProtocol .initial).executeIf
          (taskServices config) (fun view _ => oneByOneBelow bound view)
          turns =
        some final) :
    Run
      (Interleaving.Step (taskServices config) fun (view : TaskView) _ =>
        view.OneByOne)
      (.initial taskProtocol .initial) turns final :=
  Interleaving.run_of_executeIf_below
    (fun _ below _ passed => oneByOne_of_below below passed)
    (fun _ _ => rfl) turnsBelow executed

theorem Quiescent.registrationsSettled
    {config : Interleaving TaskState taskProtocol}
    (quiescent : Quiescent config) :
    RegistrationsSettled config :=
  fun pid process present _ => quiescent.1 pid process present

end Prescott
