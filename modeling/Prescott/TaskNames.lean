import Prescott.JsNumbers
import Prescott.TaskImages

namespace Prescott

/-!
# Names of tasks

A row of `tasks` is named by its group and the name in its config, and nothing
but the config member of a config is ever rewritten.  So the unique name of a
row tells the two apart that it was made from.
-/

/-- The digits of a group end where the name goes on with an underscore. -/
theorem toList_buildTaskUniqueName (groupId : Nat) (name : String) :
    (buildTaskUniqueName groupId name).toList =
      Nat.toDigits 10 groupId ++ '_' :: name.toList := by
  rw [buildTaskUniqueName, String.toList_append, String.toList_append,
    Nat.toList_repr, List.append_assoc]
  rfl

theorem buildTaskUniqueName_inj
    {groupId other : Nat}
    {name otherName : String}
    (same :
      buildTaskUniqueName groupId name = buildTaskUniqueName other otherName) :
    groupId = other ∧ name = otherName := by
  have texts := congrArg String.toList same
  rw [toList_buildTaskUniqueName, toList_buildTaskUniqueName] at texts
  have digits := congrArg (List.takeWhile Char.isDigit) texts
  rw [JsNumber.takeWhile_toDigits rfl, JsNumber.takeWhile_toDigits rfl] at digits
  rw [digits, List.append_cancel_left_eq, List.cons.injEq] at texts
  refine ⟨?_, String.toList_inj.mp texts.2⟩
  have numbers := congrArg (JsNumber.naturalOf 10) digits
  rw [JsNumber.naturalOf_toDigits, JsNumber.naturalOf_toDigits] at numbers
  exact Option.some.inj numbers

namespace Task

/-- The name of a row is the one made from its group and its config. -/
def Named (task : Task) : Prop :=
  task.name = buildTaskUniqueName task.groupId task.config.name

/-- A later state of a row, of whose config only the member `config` differs. -/
structure Continues (task old : Task) : Prop where
  id : task.id = old.id
  name : task.name = old.name
  groupId : task.groupId = old.groupId
  config : task.config = { old.config with config := task.config.config }

theorem Continues.refl (task : Task) : task.Continues task :=
  ⟨rfl, rfl, rfl, rfl⟩

theorem Named.of_continues
    {task old : Task}
    (named : old.Named)
    (continues : task.Continues old) :
    task.Named := by
  have sameName : task.config.name = old.config.name := by
    rw [continues.config]
  rw [Named, continues.name, continues.groupId, sameName]
  exact named

end Task

namespace TaskTables

/-- The rows of a later state are new, or those of the state before. -/
structure Continues (after before : TaskTables) : Prop where
  nextId : before.tasks.nextId ≤ after.tasks.nextId
  rows :
    ∀ task ∈ after.tasks.rows,
      (∃ old ∈ before.tasks.rows, task.Continues old) ∨
        (before.tasks.nextId ≤ task.id ∧ task.Named)

/-- An update of a task is about to write this config. -/
def Rewrites
    (tables : TaskTables)
    (taskId : Nat)
    (localConfig : LocalTaskConfig)
    (taskConfig : TaskConfigDto) :
    Prop :=
  taskId < tables.tasks.nextId ∧
    ∀ task ∈ tables.tasks.rows,
      task.id = taskId →
      taskConfig = { task.config with config := localConfig }

variable {before after : TaskTables}
variable {taskId : Nat}
variable {localConfig : LocalTaskConfig}
variable {taskConfig : TaskConfigDto}

/-- What was read of a row still fits it later. -/
theorem Rewrites.of_continues
    (rewrites : before.Rewrites taskId localConfig taskConfig)
    (continues : after.Continues before) :
    after.Rewrites taskId localConfig taskConfig := by
  refine ⟨Nat.lt_of_lt_of_le rewrites.1 continues.nextId, ?_⟩
  intro task member isTask
  rcases continues.rows task member with
    ⟨old, oldMember, continuesOld⟩ | ⟨new, _⟩
  · rw [rewrites.2 old oldMember (continuesOld.id.symm.trans isTask),
      continuesOld.config]
  · exact absurd (isTask ▸ new) (Nat.not_le_of_lt rewrites.1)

/-- A read config with the new member is what the update will write. -/
theorem Rewrites.of_taskOf
    {task : Task}
    (found : before.taskOf taskId = some task) :
    before.Rewrites taskId localConfig
      { task.config with config := localConfig } := by
  obtain ⟨member, matching⟩ := Table.mem_of_first found
  have isTask := beq_iff_eq.mp matching
  refine ⟨isTask ▸ before.tasks.keysBelow task member, ?_⟩
  intro other otherMember isOther
  rw [Table.eq_of_key otherMember member (isOther.trans isTask.symm)]

theorem Continues.of_eq
    (same : after.tasks = before.tasks) :
    after.Continues before := by
  constructor
  · rw [same]
  · rw [same]
    exact fun task member => .inl ⟨task, member, .refl task⟩

theorem Continues.insertTask
    {data : NewTask}
    {id : Nat}
    (inserted : before.insertTask data = .ok (id, after))
    (named : data.name = buildTaskUniqueName data.groupId data.config.name) :
    after.Continues before := by
  refine ⟨(nextId_insertTask inserted).2 ▸ Nat.le_succ _, ?_⟩
  intro task member
  rcases (mem_insertTask inserted).mp member with old | rfl
  · exact .inl ⟨task, old, .refl task⟩
  · exact .inr ⟨Nat.le_refl _, named⟩

theorem Continues.setConfig
    (rewrites : before.Rewrites taskId localConfig taskConfig) :
    (before.setConfig taskId taskConfig).Continues before := by
  refine ⟨Nat.le_refl _, ?_⟩
  intro task member
  obtain ⟨old, oldMember, rfl⟩ := mem_setConfig.mp member
  refine .inl ⟨old, oldMember, ?_⟩
  split
  · rename_i isTask
    rw [rewrites.2 old oldMember (beq_iff_eq.mp isTask)]
    exact ⟨rfl, rfl, rfl, rfl⟩
  · exact .refl old

theorem Continues.setActive (value : Bool) :
    (before.setActive taskId value).Continues before := by
  refine ⟨Nat.le_refl _, ?_⟩
  intro task member
  obtain ⟨old, oldMember, rfl⟩ := mem_setActive.mp member
  refine .inl ⟨old, oldMember, ?_⟩
  split
  · exact ⟨rfl, rfl, rfl, rfl⟩
  · exact .refl old

theorem Continues.deleteTask : (before.deleteTask taskId).Continues before :=
  ⟨Nat.le_refl _, fun task member =>
    .inl ⟨task, (Table.mem_rows_deleteWhere.mp member).1, .refl task⟩⟩

end TaskTables

namespace TaskPhase

/-- The config that an update carries along fits the row that it was read from. -/
def Rewrites (tables : TaskTables) (call : TaskCall) : TaskPhase → Prop
  | .storing taskId taskConfig =>
      ∃ localConfig,
        call = .updateTask taskId localConfig ∧
          tables.Rewrites taskId localConfig taskConfig
  | .checkingEntry taskId taskConfig | .scheduling taskId taskConfig
  | .dispatching taskId taskConfig | .unregistering taskId (some taskConfig)
  | .clearing taskId (some taskConfig) =>
      ∀ id localConfig,
        call = .updateTask id localConfig →
        id = taskId ∧ tables.Rewrites taskId localConfig taskConfig
  | _ => True

variable {config : TaskServerConfig}
variable {call : TaskCall}
variable {phase : TaskPhase}
variable {op : TaskOp}
variable {input : TaskInput}
variable {answer : Except AppError op.Result}
variable {before after : TaskState}

theorem Rewrites.of_continues
    {earlier later : TaskTables}
    (rewrites : phase.Rewrites earlier call)
    (continues : later.Continues earlier) :
    phase.Rewrites later call := by
  have carried
      {taskId : Nat}
      {taskConfig : TaskConfigDto}
      (fits :
        ∀ id localConfig,
          call = .updateTask id localConfig →
          id = taskId ∧ earlier.Rewrites taskId localConfig taskConfig)
      (id : Nat)
      (localConfig : LocalTaskConfig)
      (isCall : call = .updateTask id localConfig) :
      id = taskId ∧ later.Rewrites taskId localConfig taskConfig :=
    (fits id localConfig isCall).imp_right fun was => was.of_continues continues
  cases phase with
  | storing taskId taskConfig =>
      obtain ⟨localConfig, isCall, was⟩ := rewrites
      exact ⟨localConfig, isCall, was.of_continues continues⟩
  | checkingEntry | scheduling | dispatching => exact carried rewrites
  | unregistering taskId taskConfig | clearing taskId taskConfig =>
      cases taskConfig with
      | none => trivial
      | some taskConfig => exact carried rewrites
  | _ => trivial

/-- An update stores the config that it carries along. -/
theorem Rewrites.afterSchedule
    {tables : TaskTables}
    {taskId : Nat}
    {taskConfig : TaskConfigDto}
    (fits :
      ∀ id localConfig,
        call = .updateTask id localConfig →
        id = taskId ∧ tables.Rewrites taskId localConfig taskConfig) :
    (TaskPhase.afterSchedule call taskId taskConfig).Rewrites tables call := by
  cases call with
  | updateTask id localConfig =>
      obtain ⟨rfl, rewrites⟩ := fits id localConfig rfl
      exact ⟨localConfig, rfl, rewrites⟩
  | _ => trivial

/-- The config of an update fits its row from the moment that it is read. -/
theorem Rewrites.advance
    (rewrites : phase.Rewrites after.tables call)
    (permitted : phase.permits call op)
    (answered : taskHost config op input before = some (answer, after)) :
    (phase.advance call op answer).Rewrites after.tables call := by
  have advances := advances_advance answer permitted
  generalize phase.advance call op answer = next at advances
  cases advances with
  | failed fails =>
      cases fails with
      | same => exact rewrites
      | _ => trivial
  | updates isCall =>
      rintro id localConfig isUpdate
      rw [isCall] at isUpdate
      cases isUpdate
      obtain ⟨found, rfl⟩ := Prod.mk.inj (Option.some.inj answered)
      exact ⟨rfl, .of_taskOf (Except.ok.inj found)⟩
  | starts isCall =>
      rintro id localConfig isUpdate
      rw [isCall] at isUpdate
      cases isUpdate
  | inserted =>
      rintro id localConfig isUpdate
      obtain ⟨_, _, _, isCall, _⟩ := permitted
      rw [isCall] at isUpdate
      cases isUpdate
  | missing | scheduled | clearedForUpdate => exact rewrites
  | @unregistered taskId taskConfig | @clearing taskId taskConfig =>
      cases taskConfig with
      | none => trivial
      | some taskConfig => exact rewrites
  | present | dispatched => exact .afterSchedule rewrites
  | _ => trivial

/-- Whatever a call awaits, the rows go on as they should. -/
theorem Rewrites.continues
    (rewrites : phase.Rewrites before.tables call)
    (permitted : phase.permits call op)
    (answered : taskHost config op input before = some (answer, after)) :
    after.tables.Continues before.tables := by
  cases op with
  | insertTask data =>
      obtain ⟨groupId, userId, taskConfig, _, _, rfl⟩ :=
        inserting_of_permits permitted
      rcases TaskState.attempt_eq answered with
          ⟨_, _, inserted, _, rfl⟩ | ⟨_, _, _, rfl⟩
      · exact .insertTask inserted rfl
      · exact .of_eq rfl
  | updateTaskConfig id taskConfig =>
      cases answered
      have stores := storing_of_permits permitted
      subst stores
      obtain ⟨localConfig, _, fits⟩ := rewrites
      exact .setConfig fits
  | setTaskActive id value =>
      cases answered
      exact .setActive value
  | deleteTaskById id =>
      cases answered
      exact .deleteTask
  | _ => exact .of_eq ((taskHost_keeps answered).tasks rfl)

end TaskPhase

namespace TaskView

/-- The rows are named as they should be, and no update will change a name. -/
structure Names (view : TaskView) : Prop where
  named : ∀ task ∈ view.shared.tables.tasks.rows, task.Named
  rewrites :
    ∀ pid call phase,
      view.progress pid = some ⟨call, phase⟩ →
      phase.Rewrites view.shared.tables call

variable {config : TaskServerConfig}

/-- Every turn keeps the names. -/
theorem Names.step
    {before after : TaskView}
    {turn : Turn TaskCall TaskInput}
    (names : before.Names)
    (moves :
      Protocol.Moves (taskServices config) taskProtocol before turn after) :
    after.Names := by
  cases moves with
  | @invoke pid call shared fresh begun =>
      obtain ⟨sameTables, _⟩ := beginTaskCall_keeps begun
      constructor
      · change ∀ task ∈ shared.tables.tasks.rows, _
        rw [sameTables]
        exact names.named
      · intro other found phase present
        change phase.Rewrites shared.tables found
        rw [sameTables]
        rcases Protocol.View.place_cases present with ⟨_, isNew⟩ | ⟨_, earlier⟩
        · cases isNew
          cases call <;> trivial
        · exact names.rewrites other found phase earlier
  | @resume pid call phase op input answer shared present permitted answered =>
      have fits := names.rewrites pid call phase present
      have continues := fits.continues permitted answered
      constructor
      · intro task member
        rcases continues.rows task member with
          ⟨old, oldMember, continuesOld⟩ | ⟨_, named⟩
        · exact (names.named old oldMember).of_continues continuesOld
        · exact named
      · intro other found next placed
        rcases Protocol.View.place_cases placed with ⟨_, isNew⟩ | ⟨_, earlier⟩
        · cases isNew
          exact (fits.of_continues continues).advance permitted answered
        · exact (names.rewrites other found next earlier).of_continues continues

theorem Names.initially : TaskView.Names (.initial taskProtocol .initial) := by
  constructor
  · intro task member
    cases member
  · intro pid call phase present
    cases present

end TaskView

namespace TaskService

variable {config : TaskServerConfig}
variable {before after : TaskState}

/-- A registration is not refused as a conflict. -/
theorem register_noConflict
    {taskId : Nat}
    {taskConfig : TaskConfigDto}
    {message : String} :
    ¬ Settles (taskHost config) (register taskId taskConfig) before
      (.error (.entityConflict message)) after := by
  intro settles
  rcases Settles.bind_iff.mp settles with
    ⟨isScheduled, middle, asked, rest⟩ | ⟨reason, asked, shape⟩
  · cases isScheduled with
    | true => cases (Settles.pure_iff.mp rest).1
    | false =>
        rcases Settles.bind_iff.mp rest with
          ⟨_, _, _, dispatching⟩ | ⟨reason, scheduling, shape⟩
        · obtain ⟨_, answered⟩ := Settles.perform_iff.mp dispatching
          cases answered
        · obtain ⟨_, answered⟩ := Settles.perform_iff.mp scheduling
          simp only [taskHost] at answered
          split at answered
          · cases answered
          · cases answered
            cases shape
  · obtain ⟨_, answered⟩ := Settles.perform_iff.mp asked
    cases answered

/-- A creation is refused as a conflict just when its name is taken. -/
theorem createTask_conflict_iff
    {groupId userId : Nat}
    {taskConfig : TaskConfigDto}
    {outcome : Except AppError Nat}
    (settles :
      Settles (taskHost config) (createTask groupId userId taskConfig) before
        outcome after) :
    (∃ message, outcome = .error (.entityConflict message)) ↔
      ∃ task ∈ before.tables.tasks.rows,
        task.name = buildTaskUniqueName groupId taskConfig.name := by
  rcases Settles.bind_iff.mp settles with
    ⟨found, middle, asked, rest⟩ | ⟨reason, asked, _⟩
  · obtain ⟨_, answered⟩ := Settles.perform_iff.mp asked
    cases answered
    cases isFound : before.tables.tasks.first fun task =>
        task.name == buildTaskUniqueName groupId taskConfig.name with
    | some task =>
        rw [isFound] at rest
        obtain ⟨member, matching⟩ := Table.mem_of_first isFound
        exact iff_of_true ⟨_, (Settles.throw_iff.mp rest).1⟩
          ⟨task, member, beq_iff_eq.mp matching⟩
    | none =>
        rw [isFound] at rest
        refine iff_of_false ?_ ?_
        · rintro ⟨message, rfl⟩
          rcases Settles.bind_iff.mp rest with
            ⟨taskId, between, _, registering⟩ | ⟨reason, inserting, shape⟩
          · rcases Settles.bind_iff.mp registering with
              ⟨_, _, _, returned⟩ | ⟨reason, registering, shape⟩
            · cases (Settles.pure_iff.mp returned).1
            · cases shape
              exact register_noConflict registering
          · obtain ⟨_, answered⟩ := Settles.perform_iff.mp inserting
            rcases TaskState.attempt_eq answered with
                ⟨_, _, _, resolved, _⟩ | ⟨_, inserted, rejected, _⟩
            · cases resolved
            · cases shape
              cases rejected
              unfold TaskTables.insertTask at inserted
              split at inserted
              · cases inserted
              · cases inserted
        · rintro ⟨task, member, named⟩
          have other := Table.first_eq_none.mp isFound task member
          rw [named, beq_self_eq_true] at other
          cases other
  · obtain ⟨_, answered⟩ := Settles.perform_iff.mp asked
    cases answered

end TaskService

/-- The only rows that an update writes are those it stores its config in. -/
theorem TaskPhase.writes_of_update
    {taskId : Nat}
    {localConfig : LocalTaskConfig}
    {phase : TaskPhase}
    {op : TaskOp}
    (reaches : (TaskCall.updateTask taskId localConfig).Reaches phase)
    (permitted : phase.permits (.updateTask taskId localConfig) op) :
    op.writesTasks = false ∨
      ∃ id taskConfig, op = .updateTaskConfig id taskConfig := by
  cases phase with
  | storing id taskConfig => exact .inr ⟨id, taskConfig, permitted⟩
  | beginning | unregistering | checkingEntry | scheduling | dispatching =>
      cases permitted
      exact .inl rfl
  | clearing =>
      rcases permitted with rfl | ⟨_, rfl⟩ | rfl
      · exact .inl rfl
      · exact .inl rfl
      · exact .inl rfl
  | settled => exact permitted.elim
  | _ => exact reaches.elim

namespace TaskView

variable {config : TaskServerConfig}

/-- What one turn of an update does to the rows. -/
theorem Names.updated
    {view : TaskView}
    {pid taskId : Nat}
    {localConfig : LocalTaskConfig}
    {phase : TaskPhase}
    {op : TaskOp}
    {input : TaskInput}
    {answer : Except AppError op.Result}
    {shared : TaskState}
    (names : view.Names)
    (reaches : (TaskCall.updateTask taskId localConfig).Reaches phase)
    (present : view.progress pid = some ⟨.updateTask taskId localConfig, phase⟩)
    (permitted : phase.permits (.updateTask taskId localConfig) op)
    (answered :
      taskHost config op input view.shared = some (answer, shared)) :
    shared.tables.tasks.rows = view.shared.tables.tasks.rows ∨
      shared.tables.tasks.rows =
        view.shared.tables.tasks.rows.map fun task =>
          if task.id = taskId then
            { task with config := { task.config with config := localConfig } }
          else
            task := by
  rcases TaskPhase.writes_of_update reaches permitted with
    reads | ⟨id, taskConfig, rfl⟩
  · rw [(taskHost_keeps answered).tasks reads]
    exact .inl rfl
  · have stores := TaskPhase.storing_of_permits permitted
    subst stores
    obtain ⟨_, isCall, _, fits⟩ := names.rewrites pid _ _ present
    cases isCall
    cases answered
    refine .inr (List.map_congr_left ?_)
    intro task member
    by_cases isTask : task.id = taskId
    · simp only [isTask, beq_self_eq_true, if_true, fits task member isTask]
    · simp only [beq_iff_eq, isTask, if_false]

/-- An update goes through the phases of an update only. -/
theorem reaches_of_moves
    {turns : List (Turn TaskCall TaskInput)}
    {view : TaskView}
    {pid taskId : Nat}
    {localConfig : LocalTaskConfig}
    {phase : TaskPhase}
    (moves :
      Run
        (fun before turn after =>
          True ∧ Protocol.Moves (taskServices config) taskProtocol before turn after)
        (.initial taskProtocol .initial) turns view)
    (present : view.progress pid = some ⟨.updateTask taskId localConfig, phase⟩) :
    (TaskCall.updateTask taskId localConfig).Reaches phase := by
  refine Protocol.progress_of_moves
    (fun call phase => call.configures = true → call.Reaches phase)
    ?_ ?_ moves present rfl
  · intro call configures
    cases call <;> trivial
  · intro call phase op answer reaches permitted configures
    exact (reaches configures).advance permitted answer

end TaskView

/--
In every state that the calls of the services reach, rows are named by their
group and their config's name, which tell them apart.  A creation is refused as
a conflict just when its group has a task of that name, and an update writes
nothing of a row but the member `config` of its config.
-/
theorem names_identify_tasks
    {config : TaskServerConfig}
    {turns : List (Turn TaskCall TaskInput)}
    {final : Interleaving TaskState taskProtocol}
    (run :
      Run (Interleaving.Step (taskServices config) fun _ _ => True)
        (.initial taskProtocol .initial) turns final) :
    (∀ task ∈ final.shared.tables.tasks.rows,
      task.name = buildTaskUniqueName task.groupId task.config.name) ∧
    (∀ task ∈ final.shared.tables.tasks.rows,
      ∀ other ∈ final.shared.tables.tasks.rows,
        task.groupId = other.groupId →
        task.config.name = other.config.name →
        task = other) ∧
    (∀ groupId userId taskConfig outcome after,
      Settles (taskHost config)
          (TaskService.createTask groupId userId taskConfig) final.shared
          outcome after →
      ((∃ message, outcome = .error (.entityConflict message)) ↔
        ∃ task ∈ final.shared.tables.tasks.rows,
          task.groupId = groupId ∧ task.config.name = taskConfig.name)) ∧
    (∀ pid process taskId localConfig input after,
      final.processes pid = some process →
      process.call = .updateTask taskId localConfig →
      final.step? (taskServices config) (.resume pid input) = some after →
      after.shared.tables.tasks.rows = final.shared.tables.tasks.rows ∨
        after.shared.tables.tasks.rows =
          final.shared.tables.tasks.rows.map fun task =>
            if task.id = taskId then
              { task with
                config := { task.config with config := localConfig } }
            else
              task) := by
  obtain ⟨moves, conforming⟩ :=
    Interleaving.moves_of_run TaskPhase.conforms_taskBody run
  have names : TaskView.Names final.view :=
    moves.invariant TaskView.Names
      (fun _ _ _ names taken => names.step taken.2) TaskView.Names.initially
  refine ⟨names.named, ?_, ?_, ?_⟩
  · intro task member other otherMember sameGroup sameName
    refine List.inj_on_of_nodup_map final.shared.tables.namesNodup member
      otherMember ?_
    rw [names.named task member, names.named other otherMember, sameGroup,
      sameName]
  · intro groupId userId taskConfig outcome after settles
    rw [TaskService.createTask_conflict_iff settles]
    constructor
    · rintro ⟨task, member, named⟩
      rw [names.named task member] at named
      exact ⟨task, member, buildTaskUniqueName_inj named⟩
    · rintro ⟨task, member, rfl, sameName⟩
      exact ⟨task, member, sameName ▸ names.named task member⟩
  · intro pid process taskId localConfig input after present isCall stepped
    obtain ⟨call, phase, op, answer, shared, found, _, permitted, answered,
      sees⟩ := conforming.resumes stepped
    obtain rfl : call = .updateTask taskId localConfig := by
      rw [← isCall]
      simp only [Interleaving.view, present, Option.map_some, Option.some.injEq]
        at found
      cases found
      rfl
    have isAfter : after.shared = shared := congrArg Protocol.View.shared sees
    rw [isAfter]
    exact names.updated (TaskView.reaches_of_moves moves found) found permitted
      answered

/-- A config under another name. -/
def reportOf (name : String) : TaskConfigDto :=
  { minutely with name }

/--
Two groups create a task each, a second task of the first name is refused, and
an update of the first task is about to store its config.
-/
def mixedNameTurns : List (Turn TaskCall TaskInput) :=
  [.invoke 0 (.createTask 1 1 (reportOf "1_report")), .resume 0 .done, .resume 0 .done,
    .resume 0 .done, .resume 0 .done, .resume 0 .done,
    .invoke 1 (.createTask 11 2 (reportOf "report")), .resume 1 .done, .resume 1 .done,
    .resume 1 .done, .resume 1 .done, .resume 1 .done,
    .invoke 2 (.createTask 1 2 (reportOf "1_report")), .resume 2 .done,
    .invoke 3 (.updateTask 1 hourly), .resume 3 .done, .resume 3 .done,
    .resume 3 (.children []), .resume 3 .done, .resume 3 .done, .resume 3 .done,
    .resume 3 .done]

/-- The names `1_1_report` and `11_report` are told apart. -/
theorem names_identify_tasks_created :
    ∃ final after,
      Run (Interleaving.Step (taskServices lenientServer) fun _ _ => True)
          (.initial taskProtocol .initial) mixedNameTurns final ∧
        final.shared.tables.tasks.rows.map Task.name = ["1_1_report", "11_report"] ∧
        (∀ task ∈ final.shared.tables.tasks.rows,
          task.name = buildTaskUniqueName task.groupId task.config.name) ∧
        (∀ task ∈ final.shared.tables.tasks.rows,
          ∀ other ∈ final.shared.tables.tasks.rows,
            task.groupId = other.groupId →
            task.config.name = other.config.name →
            task = other) ∧
        (∀ outcome last,
          Settles (taskHost lenientServer)
              (TaskService.createTask 1 2 (reportOf "1_report")) final.shared
              outcome last →
          ∃ message, outcome = .error (.entityConflict message)) ∧
        (∀ outcome last,
          Settles (taskHost lenientServer)
              (TaskService.createTask 11 2 (reportOf "1_report")) final.shared
              outcome last →
          ¬ ∃ message, outcome = .error (.entityConflict message)) ∧
        final.step? (taskServices lenientServer) (.resume 3 .done) = some after ∧
        (after.shared.tables.tasks.rows = final.shared.tables.tasks.rows ∨
          after.shared.tables.tasks.rows =
            final.shared.tables.tasks.rows.map fun task =>
              if task.id = 1 then
                { task with config := { task.config with config := hourly } }
              else
                task) := by
  have run
      (final : Interleaving TaskState taskProtocol)
      (executed :
        mixedNameTurns.foldlM (Interleaving.step? (taskServices lenientServer))
            (Interleaving.initial taskProtocol .initial) =
          some final) :=
    Interleaving.run_of_foldlM executed
  obtain ⟨named, distinct, conflicts, updates⟩ := names_identify_tasks (run _ rfl)
  refine ⟨_, _, run _ rfl, rfl, named, distinct, fun outcome last settles => ?_,
    fun outcome last settles => ?_, rfl, updates 3 _ 1 hourly .done _ rfl rfl rfl⟩
  · exact (conflicts 1 2 _ outcome last settles).mpr ⟨_, .head _, rfl, rfl⟩
  · rw [conflicts 11 2 _ outcome last settles]
    rintro ⟨task, member, sameGroup, sameName⟩
    rcases List.mem_cons.mp member with rfl | member
    · cases sameGroup
    · obtain rfl := List.mem_singleton.mp member
      exact absurd sameName (by decide)

end Prescott
