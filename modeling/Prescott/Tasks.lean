import Mathlib.Data.Rat.Defs
import Mathlib.Algebra.Order.Ring.Rat
import Prescott.Errors
import Prescott.Table

namespace Prescott

/-!
# Tasks and their runs

The tables `tasks` and `task_runs` with the constraints of their migrations.
A stored config is modelled by the value its JSON text parses to.
-/

/-- The base image of a task. -/
structure EnvInfo where
  name : String
  version : Option String := none
  deriving Repr, DecidableEq

/-- A step of a task; its script is encoded in base64. -/
structure TaskStep where
  name : String
  script : String
  ignoreFailure : Option Bool := none
  deriving Repr, DecidableEq

/-- The limits of the container of a run. -/
structure Limitations where
  ram : Option String := none
  rom : Option String := none
  ttl : Option Rat := none
  cpus : Option Rat := none
  deriving Repr, DecidableEq

/-- What a run of a task does. -/
structure BaseTaskConfig where
  steps : List TaskStep
  limitations : Option Limitations := none
  deriving Repr, DecidableEq

/-- The part of a config that an update replaces. -/
structure LocalTaskConfig where
  /-- `local.scheduleConfig`, a cron expression. -/
  scheduleConfig : String
  appConfig : BaseTaskConfig
  deriving Repr, DecidableEq

/-- The config that a task is created with. -/
structure TaskConfigDto where
  name : String
  envInfo : EnvInfo
  times : Option Rat := none
  config : LocalTaskConfig
  deriving Repr, DecidableEq

/-- A row of `tasks`. -/
structure Task where
  id : Nat
  name : String
  userId : Nat
  groupId : Nat
  config : TaskConfigDto
  active : Bool
  deriving Repr, DecidableEq

/-- The statuses of a run. -/
inductive TaskRunStatus where
  | running
  | failed
  | succeed
  | pending
  | stopped
  deriving Repr, DecidableEq

/-- The run is over. -/
def TaskRunStatus.isFinal : TaskRunStatus → Bool
  | .succeed | .failed | .stopped => true
  | .running | .pending => false

/-- A number of rows, or `Infinity` where the code does not count them. -/
inductive RunRank where
  | finite (value : Nat)
  | infinity
  deriving Repr, DecidableEq

namespace RunRank

/-- `runsCount + 1`. -/
def next : RunRank → RunRank
  | .finite value => .finite (value + 1)
  | .infinity => .infinity

/-- `rank >= limit`. -/
def reaches : RunRank → Rat → Bool
  | .finite value, limit => decide (limit ≤ (value : Rat))
  | .infinity, _ => true

/-- The order in which rows are sorted by rank. -/
def le : RunRank → RunRank → Bool
  | .finite left, .finite right => decide (left ≤ right)
  | .finite _, .infinity => true
  | .infinity, .finite _ => false
  | .infinity, .infinity => true

end RunRank

/-- A row of `task_runs`; its dates are read by no modelled function. -/
structure TaskRun where
  id : Nat
  taskId : Nat
  handleId : Option String
  status : TaskRunStatus
  rank : RunRank
  deriving Repr, DecidableEq

/-- What identifies a run to its executor and to the providers. -/
structure TaskRunHandle where
  taskId : Nat
  runId : Nat
  runRank : RunRank
  deriving Repr, DecidableEq

instance : Keyed Task :=
  ⟨Task.id⟩

instance : Keyed TaskRun :=
  ⟨TaskRun.id⟩

/-- The fields of a new task. -/
structure NewTask where
  name : String
  userId : Nat
  groupId : Nat
  config : TaskConfigDto
  active : Bool
  deriving Repr, DecidableEq

/-- The row that is inserted. -/
def NewTask.row (data : NewTask) (id : Nat) : Task where
  id := id
  name := data.name
  userId := data.userId
  groupId := data.groupId
  config := data.config
  active := data.active

/-- The fields an update of a run sets. -/
structure UpdateTaskRunDto where
  status : TaskRunStatus
  handleId : Option String := none
  deriving Repr, DecidableEq

/-- `update`: an absent handle is left as it is. -/
def UpdateTaskRunDto.apply (dto : UpdateTaskRunDto) (run : TaskRun) :
    TaskRun :=
  { run with
    status := dto.status
    handleId := dto.handleId.orElse fun _ => run.handleId }

/--
The two tables.  Task names are unique, and every run belongs to a task; a
deleted task takes its runs along.
-/
structure TaskTables where
  tasks : Table Task
  taskRuns : Table TaskRun
  namesNodup : (tasks.rows.map Task.name).Nodup
  runsOfTasks :
    ∀ run ∈ taskRuns.rows, ∃ task ∈ tasks.rows, task.id = run.taskId

namespace TaskTables

/-- The tables after the migrations. -/
def empty : TaskTables where
  tasks := .empty
  taskRuns := .empty
  namesNodup := List.nodup_nil
  runsOfTasks := by
    intro run member
    cases member

/-- The task with an identifier. -/
def taskOf (tables : TaskTables) (id : Nat) : Option Task :=
  tables.tasks.first fun task => task.id == id

/-- The runs of a task in the order of their creation. -/
def runsOf (tables : TaskTables) (taskId : Nat) : List TaskRun :=
  tables.taskRuns.select fun run => run.taskId == taskId

/-- `insert` into `tasks`. -/
def insertTask (tables : TaskTables) (data : NewTask) :
    Except AppError (Nat × TaskTables) :=
  if fresh : ∀ row ∈ tables.tasks.rows, row.name ≠ data.name then
    .ok
      (tables.tasks.nextId,
        { tasks := tables.tasks.insert data.row fun _ => rfl
          taskRuns := tables.taskRuns
          namesNodup := Table.nodup_insert _ tables.namesNodup fresh
          runsOfTasks := by
            intro run member
            obtain ⟨task, taskMember, same⟩ := tables.runsOfTasks run member
            exact ⟨task, Table.mem_rows_insert.mpr (.inl taskMember), same⟩ })
  else
    .error (.uniqueViolation "tasks.name")

/-- `update` of a task; neither its identifier nor its name changes. -/
def updateTask
    (tables : TaskTables)
    (id : Nat)
    (change : Task → Task)
    (keepsId : ∀ task, (change task).id = task.id)
    (keepsName : ∀ task, (change task).name = task.name) :
    TaskTables where
  tasks := tables.tasks.updateWhere (fun task => task.id == id) change keepsId
  taskRuns := tables.taskRuns
  namesNodup := by
    have sameNames :
        (tables.tasks.updateWhere (fun task => task.id == id) change
            keepsId).rows.map Task.name =
          tables.tasks.rows.map Task.name := by
      simp only [Table.updateWhere, List.map_map]
      apply List.map_congr_left
      intro task _
      simp only [Function.comp_apply]
      split
      · exact keepsName task
      · rfl
    rw [sameNames]
    exact tables.namesNodup
  runsOfTasks := by
    intro run member
    obtain ⟨task, taskMember, same⟩ := tables.runsOfTasks run member
    refine ⟨_, Table.mem_rows_updateWhere.mpr ⟨task, taskMember, rfl⟩, ?_⟩
    split
    · rw [keepsId]
      exact same
    · exact same

/-- `setActive` of the data access object. -/
def setActive (tables : TaskTables) (id : Nat) (value : Bool) : TaskTables :=
  tables.updateTask id (fun task => { task with active := value })
    (fun _ => rfl) (fun _ => rfl)

/-- `update` of the data access object. -/
def setConfig (tables : TaskTables) (id : Nat) (config : TaskConfigDto) :
    TaskTables :=
  tables.updateTask id (fun task => { task with config })
    (fun _ => rfl) (fun _ => rfl)

/-- `delete` of a task; its runs follow by the foreign key. -/
def deleteTask (tables : TaskTables) (id : Nat) : TaskTables where
  tasks := tables.tasks.deleteWhere fun task => task.id == id
  taskRuns := tables.taskRuns.deleteWhere fun run => run.taskId == id
  namesNodup := Table.nodup_deleteWhere _ tables.namesNodup
  runsOfTasks := by
    intro run member
    obtain ⟨present, other⟩ := Table.mem_rows_deleteWhere.mp member
    obtain ⟨task, taskMember, same⟩ := tables.runsOfTasks run present
    refine ⟨task, Table.mem_rows_deleteWhere.mpr ⟨taskMember, ?_⟩, same⟩
    rw [same]
    exact other

/-- `insert` into `task_runs`, which resolves with the new row. -/
def insertRun
    (tables : TaskTables)
    (taskId : Nat)
    (rank : RunRank)
    (status : TaskRunStatus) :
    Except AppError (TaskRun × TaskTables) :=
  if present : ∃ task ∈ tables.tasks.rows, task.id = taskId then
    let row := fun id : Nat =>
      ({ id, taskId, handleId := none, status, rank } : TaskRun)
    .ok
      (row tables.taskRuns.nextId,
        { tables with
          taskRuns := tables.taskRuns.insert row fun _ => rfl
          runsOfTasks := by
            intro run member
            rcases Table.mem_rows_insert.mp member with old | rfl
            · exact tables.runsOfTasks run old
            · exact present })
  else
    .error (.foreignKeyViolation "task_runs.task_id")

/-- `update ... where` on `task_runs`. -/
def updateRuns
    (tables : TaskTables)
    (condition : TaskRun → Bool)
    (dto : UpdateTaskRunDto) :
    TaskTables :=
  { tables with
    taskRuns :=
      tables.taskRuns.updateWhere condition dto.apply fun _ => rfl
    runsOfTasks := by
      intro run member
      obtain ⟨old, oldMember, rfl⟩ := Table.mem_rows_updateWhere.mp member
      obtain ⟨task, taskMember, same⟩ := tables.runsOfTasks old oldMember
      refine ⟨task, taskMember, same.trans ?_⟩
      split
      · rfl
      · rfl }

/-- There is a row of the task. -/
def Has (tables : TaskTables) (taskId : Nat) : Prop :=
  ∃ task ∈ tables.tasks.rows, task.id = taskId

/-- There is a row of the task, and it is active. -/
def IsActive (tables : TaskTables) (taskId : Nat) : Prop :=
  ∃ task ∈ tables.tasks.rows, task.id = taskId ∧ task.active = true

variable {tables after : TaskTables}
variable {id taskId : Nat}

theorem IsActive.has (active : tables.IsActive taskId) :
    tables.Has taskId :=
  let ⟨task, member, same, _⟩ := active
  ⟨task, member, same⟩

theorem mem_insertTask
    {data : NewTask}
    (inserted : tables.insertTask data = .ok (id, after))
    {task : Task} :
    task ∈ after.tasks.rows ↔
      task ∈ tables.tasks.rows ∨ task = data.row tables.tasks.nextId := by
  unfold insertTask at inserted
  split at inserted
  · cases inserted
    simp only [Table.insert, List.mem_append, List.mem_singleton]
  · cases inserted

/-- A new task gets the next identifier. -/
theorem nextId_insertTask
    {data : NewTask}
    (inserted : tables.insertTask data = .ok (id, after)) :
    id = tables.tasks.nextId ∧
      after.tasks.nextId = tables.tasks.nextId + 1 := by
  unfold insertTask at inserted
  split at inserted
  · cases inserted
    exact ⟨rfl, rfl⟩
  · cases inserted

/-- A new run is a row with the next identifier. -/
theorem insertRun_eq
    {rank : RunRank}
    {status : TaskRunStatus}
    {new : TaskRun}
    (inserted : tables.insertRun taskId rank status = .ok (new, after)) :
    new.id = tables.taskRuns.nextId ∧
      new.taskId = taskId ∧
      new.status = status ∧
      after.taskRuns.nextId = tables.taskRuns.nextId + 1 ∧
      ∀ {run : TaskRun},
        run ∈ after.taskRuns.rows ↔
          run ∈ tables.taskRuns.rows ∨ run = new := by
  unfold insertRun at inserted
  split at inserted
  · cases inserted
    exact ⟨rfl, rfl, rfl, rfl, by simp [Table.insert]⟩
  · cases inserted

/-- A row is found under its identifier. -/
theorem taskOf_of_mem
    {task : Task}
    (member : task ∈ tables.tasks.rows) :
    tables.taskOf task.id = some task := by
  have isSome : (tables.taskOf task.id).isSome = true :=
    Table.first_isSome.mpr ⟨task, member, beq_self_eq_true task.id⟩
  obtain ⟨found, shape⟩ := Option.isSome_iff_exists.mp isSome
  obtain ⟨foundMember, sameId⟩ := Table.mem_of_first shape
  rw [Table.eq_of_key foundMember member (beq_iff_eq.mp sameId)] at shape
  exact shape

theorem Has.insertTask
    {data : NewTask}
    (inserted : tables.insertTask data = .ok (id, after))
    (has : tables.Has taskId) :
    after.Has taskId :=
  let ⟨task, member, same⟩ := has
  ⟨task, (mem_insertTask inserted).mpr (.inl member), same⟩

theorem IsActive.insertTask
    {data : NewTask}
    (inserted : tables.insertTask data = .ok (id, after))
    (active : tables.IsActive taskId) :
    after.IsActive taskId :=
  let ⟨task, member, same, isActive⟩ := active
  ⟨task, (mem_insertTask inserted).mpr (.inl member), same, isActive⟩

theorem mem_setConfig
    {config : TaskConfigDto}
    {task : Task} :
    task ∈ (tables.setConfig id config).tasks.rows ↔
      ∃ old ∈ tables.tasks.rows,
        (if old.id == id then { old with config } else old) = task :=
  List.mem_map

theorem mem_updateRuns
    {condition : TaskRun → Bool}
    {dto : UpdateTaskRunDto}
    {run : TaskRun} :
    run ∈ (tables.updateRuns condition dto).taskRuns.rows ↔
      ∃ old ∈ tables.taskRuns.rows,
        (if condition old then dto.apply old else old) = run :=
  List.mem_map

theorem mem_setActive
    {value : Bool}
    {task : Task} :
    task ∈ (tables.setActive id value).tasks.rows ↔
      ∃ old ∈ tables.tasks.rows,
        (if old.id == id then { old with active := value } else old) = task :=
  List.mem_map

theorem Has.setConfig
    {config : TaskConfigDto}
    (has : tables.Has taskId) :
    (tables.setConfig id config).Has taskId := by
  obtain ⟨task, member, same⟩ := has
  refine ⟨_, mem_setConfig.mpr ⟨task, member, rfl⟩, ?_⟩
  split
  · exact same
  · exact same

theorem IsActive.setConfig
    {config : TaskConfigDto}
    (active : tables.IsActive taskId) :
    (tables.setConfig id config).IsActive taskId := by
  obtain ⟨task, member, same, isActive⟩ := active
  refine ⟨_, mem_setConfig.mpr ⟨task, member, rfl⟩, ?_⟩
  split
  · exact ⟨same, isActive⟩
  · exact ⟨same, isActive⟩

theorem Has.setActive
    {value : Bool}
    (has : tables.Has taskId) :
    (tables.setActive id value).Has taskId := by
  obtain ⟨task, member, same⟩ := has
  refine ⟨_, mem_setActive.mpr ⟨task, member, rfl⟩, ?_⟩
  split
  · exact same
  · exact same

/-- Activating a task makes it active if it is there. -/
theorem IsActive.of_activated
    (has : tables.Has taskId) :
    (tables.setActive taskId true).IsActive taskId := by
  obtain ⟨task, member, same⟩ := has
  refine ⟨_, mem_setActive.mpr ⟨task, member, rfl⟩, ?_⟩
  rw [if_pos (beq_iff_eq.mpr same)]
  exact ⟨same, rfl⟩

/-- The activity of another task does not change. -/
theorem IsActive.setActive
    {value : Bool}
    (other : id ≠ taskId)
    (active : tables.IsActive taskId) :
    (tables.setActive id value).IsActive taskId := by
  obtain ⟨task, member, same, isActive⟩ := active
  refine ⟨_, mem_setActive.mpr ⟨task, member, rfl⟩, ?_⟩
  have otherRow : ¬ (task.id == id) = true := by
    rw [beq_iff_eq, same]
    exact Ne.symm other
  rw [if_neg otherRow]
  exact ⟨same, isActive⟩

theorem Has.deleteTask
    (other : id ≠ taskId)
    (has : tables.Has taskId) :
    (tables.deleteTask id).Has taskId := by
  obtain ⟨task, member, same⟩ := has
  refine ⟨task, Table.mem_rows_deleteWhere.mpr ⟨member, ?_⟩, same⟩
  rw [beq_eq_false_iff_ne, same]
  exact Ne.symm other

theorem IsActive.deleteTask
    (other : id ≠ taskId)
    (active : tables.IsActive taskId) :
    (tables.deleteTask id).IsActive taskId := by
  obtain ⟨task, member, same, isActive⟩ := active
  refine ⟨task, Table.mem_rows_deleteWhere.mpr ⟨member, ?_⟩, same, isActive⟩
  rw [beq_eq_false_iff_ne, same]
  exact Ne.symm other

end TaskTables

end Prescott
