import Mathlib.Data.Rat.Floor
import Prescott.CronActivity
import Prescott.TaskTransitions

namespace Prescott

/-!
# The registration of runs

`tryToRegister` counts the runs of a task and then inserts the next one, in
two statements.  Between them the lock of the task is held, so that what has
been counted is still there: the runs of a limited task are numbered without
gaps and never exceed the limit, in every interleaving of all task calls.
-/

namespace TaskTables

/-- The ranks of the runs of a task in the order of their creation. -/
def ranksOf (tables : TaskTables) (taskId : Nat) : List RunRank :=
  (tables.runsOf taskId).map TaskRun.rank

/-- The ranks `1, ..., count`. -/
def firstRanks (count : Nat) : List RunRank :=
  (List.range count).map fun index => .finite (index + 1)

/-- The runs of every limited task are numbered and within the limit. -/
def RunsLimited (tables : TaskTables) : Prop :=
  ∀ task ∈ tables.tasks.rows, ∀ limit,
    task.config.times = some limit →
    ∃ count,
      tables.ranksOf task.id = firstRanks count ∧ count ≤ ⌈limit⌉₊

/-- The task is known, and its row, as long as there is one, has this limit. -/
def HasTimes (tables : TaskTables) (taskId : Nat) (times : Option Rat) :
    Prop :=
  taskId < tables.tasks.nextId ∧
    ∀ task ∈ tables.tasks.rows, task.id = taskId → task.config.times = times

/-- A rank is the next one of a task within its limit. -/
def IsNextRank (tables : TaskTables) (taskId : Nat) (rank : RunRank) : Prop :=
  taskId < tables.tasks.nextId ∧
    ∀ task ∈ tables.tasks.rows, task.id = taskId →
      ∀ limit, task.config.times = some limit →
        rank = .finite ((tables.ranksOf taskId).length + 1) ∧
          ((tables.ranksOf taskId).length : Rat) < limit

/-- No row is given another limit, and no identifier is given again. -/
structure KeepsTimes (before after : TaskTables) : Prop where
  nextId_le : before.tasks.nextId ≤ after.tasks.nextId
  old :
    ∀ task ∈ after.tasks.rows, task.id < before.tasks.nextId →
      ∃ earlier ∈ before.tasks.rows,
        earlier.id = task.id ∧ earlier.config.times = task.config.times

variable {tables before after : TaskTables}
variable {id taskId : Nat}
variable {times : Option Rat}
variable {rank : RunRank}

theorem firstRanks_succ
    {count : Nat} :
    firstRanks (count + 1) = firstRanks count ++ [.finite (count + 1)] := by
  simp [firstRanks, List.range_succ]

@[simp] theorem length_firstRanks
    {count : Nat} :
    (firstRanks count).length = count := by
  simp [firstRanks]

/-- A task that is not known yet has no runs. -/
theorem ranksOf_of_nextId_le
    (unknown : tables.tasks.nextId ≤ taskId) :
    tables.ranksOf taskId = [] := by
  have none : tables.runsOf taskId = [] := by
    refine List.filter_eq_nil_iff.mpr fun run member same => ?_
    obtain ⟨task, taskMember, owner⟩ := tables.runsOfTasks run member
    have known : task.id < tables.tasks.nextId :=
      tables.tasks.keysBelow task taskMember
    rw [owner, beq_iff_eq.mp same] at known
    exact Nat.not_lt_of_le unknown known
  simp [ranksOf, none]

theorem ranksOf_congr
    (same : after.taskRuns = before.taskRuns) :
    after.ranksOf taskId = before.ranksOf taskId := by
  unfold ranksOf runsOf
  rw [same]

/-- An update of runs keeps their ranks. -/
theorem ranksOf_updateRuns
    {condition : TaskRun → Bool}
    {dto : UpdateTaskRunDto} :
    (tables.updateRuns condition dto).ranksOf taskId =
      tables.ranksOf taskId := by
  simp only [ranksOf, runsOf, updateRuns, Table.updateWhere, Table.select,
    List.filter_map, List.map_map]
  have sameTask :
      ((fun run : TaskRun => run.taskId == taskId) ∘ fun run =>
          if condition run then dto.apply run else run) =
        fun run => run.taskId == taskId := by
    funext run
    simp only [Function.comp_apply]
    split
    · rfl
    · rfl
  rw [sameTask]
  apply List.map_congr_left
  intro run _
  simp only [Function.comp_apply]
  split
  · rfl
  · rfl

/-- A deleted task takes only its own runs along. -/
theorem ranksOf_deleteTask
    (other : taskId ≠ id) :
    (tables.deleteTask id).ranksOf taskId = tables.ranksOf taskId := by
  simp only [ranksOf, runsOf, deleteTask, Table.deleteWhere, Table.select,
    List.filter_filter]
  congr 1
  apply List.filter_congr
  intro run _
  cases isOwn : run.taskId == taskId with
  | false =>
      rfl
  | true =>
      rw [beq_iff_eq.mp isOwn]
      simp [other]

/-- A new run is the last one of its task. -/
theorem ranksOf_insertRun
    {status : TaskRunStatus}
    {run : TaskRun}
    (inserted : tables.insertRun id rank status = .ok (run, after)) :
    after.ranksOf taskId =
      if id = taskId then tables.ranksOf taskId ++ [rank]
      else tables.ranksOf taskId := by
  unfold insertRun at inserted
  split at inserted
  · cases inserted
    simp only [ranksOf, runsOf, Table.insert, Table.select,
      List.filter_append, List.map_append, List.filter_singleton]
    by_cases same : id = taskId
    · simp [same]
    · simp [same, beq_eq_false_iff_ne.mpr same]
  · cases inserted

theorem KeepsTimes.refl (tables : TaskTables) : KeepsTimes tables tables :=
  ⟨Nat.le_refl _, fun task member _ => ⟨task, member, rfl, rfl⟩⟩

theorem KeepsTimes.of_eq
    (same : after.tasks = before.tasks) :
    KeepsTimes before after := by
  constructor
  · rw [same]
  · intro task member _
    rw [same] at member
    exact ⟨task, member, rfl, rfl⟩

theorem KeepsTimes.insertTask
    {data : NewTask}
    (inserted : tables.insertTask data = .ok (id, after)) :
    KeepsTimes tables after := by
  constructor
  · rw [(nextId_insertTask inserted).2]
    exact Nat.le_succ _
  · intro task member known
    rcases (mem_insertTask inserted).mp member with old | rfl
    · exact ⟨task, old, rfl, rfl⟩
    · exact absurd known (Nat.lt_irrefl _)

theorem KeepsTimes.setActive
    {value : Bool} :
    KeepsTimes tables (tables.setActive id value) := by
  refine ⟨Nat.le_refl _, fun task member _ => ?_⟩
  obtain ⟨old, oldMember, rfl⟩ := mem_setActive.mp member
  refine ⟨old, oldMember, ?_⟩
  split
  · exact ⟨rfl, rfl⟩
  · exact ⟨rfl, rfl⟩

theorem KeepsTimes.setConfig
    {config : TaskConfigDto}
    (hasTimes : tables.HasTimes id config.times) :
    KeepsTimes tables (tables.setConfig id config) := by
  refine ⟨Nat.le_refl _, fun task member _ => ?_⟩
  obtain ⟨old, oldMember, rfl⟩ := mem_setConfig.mp member
  refine ⟨old, oldMember, ?_⟩
  split
  · rename_i isRow
    exact ⟨rfl, hasTimes.2 old oldMember (beq_iff_eq.mp isRow)⟩
  · exact ⟨rfl, rfl⟩

theorem KeepsTimes.deleteTask :
    KeepsTimes tables (tables.deleteTask id) :=
  ⟨Nat.le_refl _, fun task member _ =>
    ⟨task, (Table.mem_rows_deleteWhere.mp member).1, rfl, rfl⟩⟩

/-- A task that is found has the limit it is found with. -/
theorem HasTimes.of_taskOf
    {task : Task}
    (found : tables.taskOf id = some task) :
    tables.HasTimes id task.config.times := by
  obtain ⟨member, sameId⟩ := Table.mem_of_first found
  rw [beq_iff_eq] at sameId
  subst sameId
  refine ⟨tables.tasks.keysBelow task member, fun other otherMember same => ?_⟩
  rw [Table.eq_of_key otherMember member same]

/-- A new task has the limit it is inserted with. -/
theorem HasTimes.of_insertTask
    {data : NewTask}
    (inserted : tables.insertTask data = .ok (id, after)) :
    after.HasTimes id data.config.times := by
  obtain ⟨rfl, nextId⟩ := nextId_insertTask inserted
  refine ⟨by rw [nextId]; exact Nat.lt_succ_self _, ?_⟩
  intro task member same
  rcases (mem_insertTask inserted).mp member with old | rfl
  · have known : task.id < tables.tasks.nextId :=
      tables.tasks.keysBelow task old
    exact absurd same (Nat.ne_of_lt known)
  · rfl

theorem HasTimes.kept
    (hasTimes : before.HasTimes taskId times)
    (keeps : KeepsTimes before after) :
    after.HasTimes taskId times := by
  refine ⟨Nat.lt_of_lt_of_le hasTimes.1 keeps.nextId_le, ?_⟩
  rintro task member rfl
  obtain ⟨earlier, earlierMember, sameId, sameTimes⟩ :=
    keeps.old task member hasTimes.1
  rw [← sameTimes]
  exact hasTimes.2 earlier earlierMember sameId

/-- What was counted stays counted while the runs of the task do not change. -/
theorem IsNextRank.kept
    (isNext : before.IsNextRank taskId rank)
    (keeps : KeepsTimes before after)
    (sameRanks :
      after.Has taskId → after.ranksOf taskId = before.ranksOf taskId) :
    after.IsNextRank taskId rank := by
  refine ⟨Nat.lt_of_lt_of_le isNext.1 keeps.nextId_le, ?_⟩
  rintro task member rfl limit limited
  obtain ⟨earlier, earlierMember, sameId, sameTimes⟩ :=
    keeps.old task member isNext.1
  rw [sameRanks ⟨task, member, rfl⟩]
  exact isNext.2 earlier earlierMember sameId limit (sameTimes.trans limited)

/-- Without a limit every rank will do. -/
theorem IsNextRank.of_unlimited
    (hasTimes : tables.HasTimes taskId none) :
    tables.IsNextRank taskId rank := by
  refine ⟨hasTimes.1, fun task member same limit limited => ?_⟩
  rw [hasTimes.2 task member same] at limited
  cases limited

theorem IsNextRank.of_counted
    {limit : Rat}
    (hasTimes : tables.HasTimes taskId (some limit))
    (allowed : ((tables.runsOf taskId).length : Rat) < limit) :
    tables.IsNextRank taskId
      (.finite ((tables.runsOf taskId).length + 1)) := by
  refine ⟨hasTimes.1, fun task member same other limited => ?_⟩
  rw [hasTimes.2 task member same] at limited
  cases limited
  simp only [ranksOf, List.length_map]
  exact ⟨trivial, allowed⟩

/-- Where the ranks of the tasks that are there do not change. -/
theorem RunsLimited.kept
    (limited : before.RunsLimited)
    (keeps : KeepsTimes before after)
    (sameRanks :
      ∀ taskId, after.Has taskId →
        after.ranksOf taskId = before.ranksOf taskId) :
    after.RunsLimited := by
  intro task member limit isLimited
  rw [sameRanks task.id ⟨task, member, rfl⟩]
  rcases Nat.lt_or_ge task.id before.tasks.nextId with known | unknown
  · obtain ⟨earlier, earlierMember, sameId, sameTimes⟩ :=
      keeps.old task member known
    rw [← sameId]
    exact limited earlier earlierMember limit (sameTimes.trans isLimited)
  · exact ⟨0, ranksOf_of_nextId_le unknown, Nat.zero_le _⟩

/-- The insert of a next rank keeps the runs limited. -/
theorem RunsLimited.insertRun
    {status : TaskRunStatus}
    {run : TaskRun}
    (limited : tables.RunsLimited)
    (isNext : tables.IsNextRank id rank)
    (inserted : tables.insertRun id rank status = .ok (run, after)) :
    after.RunsLimited := by
  intro task member limit isLimited
  rw [tasks_insertRun inserted] at member
  obtain ⟨count, numbered, within⟩ := limited task member limit isLimited
  rw [ranksOf_insertRun inserted]
  by_cases same : id = task.id
  · subst same
    obtain ⟨sameRank, allowed⟩ := isNext.2 task member rfl limit isLimited
    rw [numbered, length_firstRanks] at sameRank allowed
    refine ⟨count + 1, ?_, Nat.add_one_le_ceil_iff.mpr allowed⟩
    rw [if_pos rfl, numbered, sameRank, firstRanks_succ]
  · rw [if_neg same]
    exact ⟨count, numbered, within⟩

end TaskTables

/-- The task services over a database whose statements may fail. -/
def failingTaskServices (config : TaskServerConfig) :
    Service taskSignature AppError TaskState (TaskInput ⊕ AppError) TaskCall
      TaskReply :=
  (taskServices config).failing TaskOp.isStatement

namespace TaskPhase

/-- The task and the limit a phase carries along. -/
def timesOf : TaskPhase → Option (Nat × Option Rat)
  | .checkingEntry taskId taskConfig | .scheduling taskId taskConfig
  | .dispatching taskId taskConfig | .storing taskId taskConfig
  | .unregistering taskId (some taskConfig)
  | .clearing taskId (some taskConfig) => some (taskId, taskConfig.times)
  | .locking taskId times _ => some (taskId, times)
  | .counting taskId limit => some (taskId, some limit)
  | _ => none

variable {config : TaskServerConfig}
variable {call : TaskCall}
variable {phase : TaskPhase}
variable {op : TaskOp}
variable {input : TaskInput}
variable {before after : TaskState}
variable {answer : Except AppError op.Result}
variable {taskId id : Nat}
variable {times : Option Rat}

theorem creating_of_permits
    {rank : RunRank}
    {status : TaskRunStatus}
    (permitted : phase.permits call (.insertRun id rank status)) :
    phase = .creating id rank := by
  cases phase <;> simp [permits] at permitted
  case beginning => cases call <;> simp [TaskCall.firstOp] at permitted
  case creating => rw [permitted.1, permitted.2.1]

theorem unlocking_of_permits
    {resource : String}
    (permitted : phase.permits call (.unlockResource resource)) :
    ∃ taskId registration,
      phase = .unlocking taskId registration ∧ resource = toString taskId := by
  cases phase <;> simp [permits] at permitted
  case beginning => cases call <;> simp [TaskCall.firstOp] at permitted
  case unlocking taskId registration =>
    exact ⟨taskId, registration, rfl, permitted⟩

/-- Nothing is held or carried where a call begins. -/
theorem timesOf_start :
    (taskProtocol.start call).timesOf = none := by
  cases call <;> rfl

theorem lockOf_start :
    (taskProtocol.start call).lockOf = none := by
  cases call <;> rfl

/-- A failed operation leads to no phase that carries anything new. -/
theorem FailsTo.timesOf
    {next : TaskPhase}
    (fails : FailsTo phase next)
    (carried : next.timesOf = some (taskId, times)) :
    phase.timesOf = some (taskId, times) := by
  cases fails with
  | same _ => exact carried
  | stopping | settled | failing | leaving | unlocking => cases carried

/-- A task that a statement finds has the limit it is found with. -/
theorem hasTimes_of_found
    {task : Task}
    (answered :
      taskHost config (.findTaskById id) input before =
        some (.ok (some task), after)) :
    after.tables.HasTimes id task.config.times := by
  obtain ⟨found, rfl⟩ := Prod.mk.inj (Option.some.inj answered)
  exact .of_taskOf (Except.ok.inj found)

/-- What a phase carries was carried before, or it is the limit of the row. -/
theorem timesOf_advance
    (permitted : phase.permits call op)
    (answered : taskHost config op input before = some (answer, after))
    (carried :
      (phase.advance call op answer).timesOf = some (taskId, times)) :
    phase.timesOf = some (taskId, times) ∨
      after.tables.HasTimes taskId times := by
  have advances := advances_advance answer permitted
  generalize phase.advance call op answer = next at advances carried
  cases advances with
  | failed fails => exact .inl (fails.timesOf carried)
  | starts | updates | fires =>
      cases carried
      exact .inr (hasTimes_of_found answered)
  | inserted =>
      cases carried
      rcases TaskState.attempt_eq answered with
          ⟨_, _, inserted, resolved, rfl⟩ | ⟨_, _, rejected, _⟩
      · cases resolved
        exact .inr (.of_insertTask inserted)
      · cases rejected
  | present | dispatched =>
      cases call <;> cases carried
      exact .inl rfl
  | unregistered =>
      rename_i taskConfig _
      cases taskConfig <;> exact .inl carried
  | _ => first | exact .inl carried | cases carried

/-- A failed operation takes no lock. -/
theorem FailsTo.lockOf
    {next : TaskPhase}
    (fails : FailsTo phase next)
    (held : next.lockOf = some taskId) :
    phase.lockOf = some taskId := by
  cases fails with
  | same _ => exact held
  | stopping | settled | failing | leaving => cases held
  | unlocking locked =>
      cases held
      exact locked

/-- A failed operation creates nothing. -/
theorem FailsTo.ne_creating
    {next : TaskPhase}
    {rank : RunRank}
    (fails : FailsTo phase next) :
    next ≠ .creating taskId rank := by
  rintro rfl
  cases fails with
  | same free => cases free

/-- A lock that is held was held before, or it has just been taken. -/
theorem lockOf_advance
    (permitted : phase.permits call op)
    (answered : taskHost config op input before = some (answer, after))
    (held : (phase.advance call op answer).lockOf = some taskId) :
    phase.lockOf = some taskId ∨
      (toString taskId ∉ before.lockedResources ∧
        after.lockedResources = toString taskId :: before.lockedResources) := by
  have advances := advances_advance answer permitted
  generalize phase.advance call op answer = next at advances held
  cases advances with
  | failed fails => exact .inl (fails.lockOf held)
  | lockedLimited | lockedUnlimited =>
      cases held
      simp only [taskHost] at answered
      split at answered
      · cases answered
      · cases answered
        rename_i free
        exact .inr ⟨by simpa using free, rfl⟩
  | present | dispatched => cases call <;> cases held
  | _ => first | exact .inl held | cases held

/-- The rank of the run that is created next is the next one. -/
theorem creating_advance
    {rank : RunRank}
    (permitted : phase.permits call op)
    (answered : taskHost config op input before = some (answer, after))
    (hasTimes :
      ∀ taskId times,
        phase.timesOf = some (taskId, times) →
        before.tables.HasTimes taskId times)
    (creates : phase.advance call op answer = .creating taskId rank) :
    after.tables.IsNextRank taskId rank := by
  have advances := advances_advance answer permitted
  generalize phase.advance call op answer = next at advances creates
  cases advances with
  | failed fails =>
      exact (fails.ne_creating creates).elim
  | lockedUnlimited =>
      cases creates
      have sameTasks := (taskHost_keeps answered).tasks rfl
      exact .of_unlimited ((hasTimes _ _ rfl).kept (.of_eq sameTasks))
  | counted allowed =>
      cases creates
      cases answered
      exact .of_counted (hasTimes _ _ rfl) allowed
  | present | dispatched => cases call <;> cases creates
  | _ => cases creates

/-- A lock that has been given back is held no longer. -/
theorem lockOf_unlocked
    {registration : Registration} :
    (advance call (.unlocking id registration) op answer).lockOf = none := by
  cases registration <;> cases answer <;> rfl

end TaskPhase

/-- Every operation of a call that carries the right limit keeps all limits. -/
theorem keepsTimes_of_answered
    {config : TaskServerConfig}
    {op : TaskOp}
    {input : TaskInput}
    {before after : TaskState}
    {answer : Except AppError op.Result}
    (answered : taskHost config op input before = some (answer, after))
    (stores :
      ∀ id taskConfig,
        op = .updateTaskConfig id taskConfig →
        before.tables.HasTimes id taskConfig.times) :
    TaskTables.KeepsTimes before.tables after.tables := by
  cases op with
  | insertTask data =>
      rcases TaskState.attempt_eq answered with
          ⟨_, _, inserted, _, rfl⟩ | ⟨_, _, _, rfl⟩
      · exact .insertTask inserted
      · exact .refl _
  | updateTaskConfig id taskConfig =>
      cases answered
      exact .setConfig (stores id taskConfig rfl)
  | deleteTaskById id =>
      cases answered
      exact .deleteTask
  | setTaskActive id value =>
      cases answered
      exact .setActive
  | _ => exact .of_eq ((taskHost_keeps answered).tasks rfl)

/-- Only an insert of runs changes the ranks of a task that stays. -/
theorem ranksOf_of_answered
    {config : TaskServerConfig}
    {op : TaskOp}
    {input : TaskInput}
    {before after : TaskState}
    {answer : Except AppError op.Result}
    {taskId : Nat}
    (answered : taskHost config op input before = some (answer, after))
    (noInsert : ∀ rank status, op ≠ .insertRun taskId rank status)
    (has : after.tables.Has taskId) :
    after.tables.ranksOf taskId = before.tables.ranksOf taskId := by
  cases op with
  | insertRun id rank status =>
      rcases TaskState.attempt_eq answered with
          ⟨_, _, inserted, _, rfl⟩ | ⟨_, _, _, rfl⟩
      · rw [TaskTables.ranksOf_insertRun inserted, if_neg]
        rintro rfl
        exact noInsert rank status rfl
      · rfl
  | updateRun id dto =>
      cases answered
      exact TaskTables.ranksOf_updateRuns
  | updateRunsByTaskAndStatus id status dto =>
      cases answered
      exact TaskTables.ranksOf_updateRuns
  | deleteTaskById id =>
      cases answered
      refine TaskTables.ranksOf_deleteTask ?_
      rintro rfl
      obtain ⟨task, member, same⟩ := has
      have other := (Table.mem_rows_deleteWhere.mp member).2
      rw [same, beq_self_eq_true] at other
      cases other
  | _ => exact TaskTables.ranksOf_congr ((taskHost_keeps answered).taskRuns rfl)

/-- A locked resource stays locked until it is given back. -/
theorem locked_of_answered
    {config : TaskServerConfig}
    {op : TaskOp}
    {input : TaskInput}
    {before after : TaskState}
    {answer : Except AppError op.Result}
    {resource : String}
    (answered : taskHost config op input before = some (answer, after))
    (notGivenBack : op ≠ .unlockResource resource)
    (locked : resource ∈ before.lockedResources) :
    resource ∈ after.lockedResources := by
  cases op with
  | lockResource other =>
      simp only [taskHost] at answered
      split at answered
      · cases answered
        exact locked
      · cases answered
        exact List.mem_cons_of_mem _ locked
  | unlockResource other =>
      cases answered
      refine List.mem_filter.mpr ⟨locked, ?_⟩
      rw [bne_iff_ne]
      rintro rfl
      exact notGivenBack rfl
  | _ =>
      rw [(taskHost_keeps answered).lockedResources rfl]
      exact locked

namespace TaskView

/-- A registration relies on what it has counted and on its lock. -/
structure Registering (view : TaskView) : Prop where
  limited : view.shared.tables.RunsLimited
  times :
    ∀ pid phase taskId times,
      view.InPhase pid phase →
      phase.timesOf = some (taskId, times) →
      view.shared.tables.HasTimes taskId times
  nextRank :
    ∀ pid taskId rank,
      view.InPhase pid (.creating taskId rank) →
      view.shared.tables.IsNextRank taskId rank
  locked :
    ∀ pid phase taskId,
      view.InPhase pid phase →
      phase.lockOf = some taskId →
      toString taskId ∈ view.shared.lockedResources
  exclusive :
    ∀ pid other phase otherPhase taskId,
      view.InPhase pid phase →
      view.InPhase other otherPhase →
      phase.lockOf = some taskId →
      otherPhase.lockOf = some taskId →
      pid = other

variable {view : TaskView}
variable {pid : Nat}
variable {call : TaskCall}
variable {phase next : TaskPhase}
variable {shared : TaskState}

/-- No task is given another limit. -/
theorem Registering.keepsTimes
    {config : TaskServerConfig}
    {op : TaskOp}
    {input : TaskInput}
    {answer : Except AppError op.Result}
    (registering : view.Registering)
    (inPhase : view.InPhase pid phase)
    (permitted : phase.permits call op)
    (answered :
      taskHost config op input view.shared = some (answer, shared)) :
    TaskTables.KeepsTimes view.shared.tables shared.tables := by
  refine keepsTimes_of_answered answered ?_
  rintro id taskConfig rfl
  have stores := TaskPhase.storing_of_permits permitted
  subst stores
  exact registering.times pid _ id _ inPhase rfl

/-- The runs are limited after an answer. -/
theorem Registering.limited_answer
    {config : TaskServerConfig}
    {op : TaskOp}
    {input : TaskInput}
    {answer : Except AppError op.Result}
    (registering : view.Registering)
    (inPhase : view.InPhase pid phase)
    (permitted : phase.permits call op)
    (answered : taskHost config op input view.shared = some (answer, shared))
    (keeps : TaskTables.KeepsTimes view.shared.tables shared.tables) :
    shared.tables.RunsLimited := by
  by_cases inserts : ∃ taskId rank status, op = .insertRun taskId rank status
  · obtain ⟨taskId, rank, status, rfl⟩ := inserts
    have creates := TaskPhase.creating_of_permits permitted
    subst creates
    rcases TaskState.attempt_eq answered with
        ⟨_, _, inserted, _, rfl⟩ | ⟨_, _, _, rfl⟩
    · exact registering.limited.insertRun
        (registering.nextRank pid taskId rank inPhase) inserted
    · exact registering.limited
  · refine registering.limited.kept keeps fun taskId has =>
      ranksOf_of_answered answered ?_ has
    rintro rank status rfl
    exact inserts ⟨taskId, rank, status, rfl⟩

/-- A move of the protocol in which the host answers. -/
theorem Registering.answer
    {config : TaskServerConfig}
    {op : TaskOp}
    {input : TaskInput}
    {answer : Except AppError op.Result}
    (registering : view.Registering)
    (present : view.progress pid = some ⟨call, phase⟩)
    (permitted : phase.permits call op)
    (answered :
      taskHost config op input view.shared = some (answer, shared)) :
    TaskView.Registering
      (view.place pid ⟨call, phase.advance call op answer⟩ shared) := by
  have inPhase : view.InPhase pid phase := ⟨call, present⟩
  have keeps := registering.keepsTimes inPhase permitted answered
  have staysLocked
      {other : Nat}
      {otherPhase : TaskPhase}
      {taskId : Nat}
      (earlier : view.InPhase other otherPhase)
      (held : otherPhase.lockOf = some taskId)
      (notGivenBack : ∀ registration, phase ≠ .unlocking taskId registration) :
      toString taskId ∈ shared.lockedResources := by
    refine locked_of_answered answered ?_
      (registering.locked other otherPhase taskId earlier held)
    rintro rfl
    obtain ⟨id, registration, unlocks, same⟩ :=
      TaskPhase.unlocking_of_permits permitted
    exact notGivenBack registration (by rw [unlocks, eq_of_repr_eq same])
  constructor
  · exact registering.limited_answer inPhase permitted answered keeps
  · intro other otherPhase taskId times inOther carried
    rcases inOther.of_place with ⟨rfl, rfl⟩ | ⟨_, earlier⟩
    · rcases TaskPhase.timesOf_advance permitted answered carried with
          before | now
      · exact (registering.times _ _ _ _ inPhase before).kept keeps
      · exact now
    · exact (registering.times _ _ _ _ earlier carried).kept keeps
  · intro other taskId rank inOther
    rcases inOther.of_place with ⟨rfl, creates⟩ | ⟨different, earlier⟩
    · exact TaskPhase.creating_advance permitted answered
        (fun _ _ carried => registering.times _ _ _ _ inPhase carried)
        creates.symm
    · refine (registering.nextRank _ _ _ earlier).kept keeps fun has =>
        ranksOf_of_answered answered ?_ has
      rintro otherRank status rfl
      have creates := TaskPhase.creating_of_permits permitted
      subst creates
      exact different
        (registering.exclusive other pid _ _ taskId earlier inPhase rfl rfl)
  · intro other otherPhase taskId inOther held
    rcases inOther.of_place with ⟨rfl, rfl⟩ | ⟨different, earlier⟩
    · rcases TaskPhase.lockOf_advance permitted answered held with
          before | ⟨_, taken⟩
      · refine staysLocked inPhase before ?_
        rintro registration rfl
        have released :
            (TaskPhase.advance call (.unlocking taskId registration) op
              answer).lockOf = none :=
          TaskPhase.lockOf_unlocked
        cases released.symm.trans held
      · change toString taskId ∈ shared.lockedResources
        rw [taken]
        exact List.mem_cons_self
    · refine staysLocked earlier held ?_
      rintro registration rfl
      exact different
        (registering.exclusive other pid _ _ taskId earlier inPhase held rfl)
  · intro left right leftPhase rightPhase taskId inLeft inRight leftHeld
      rightHeld
    have excludes
        {other : Nat}
        {otherPhase : TaskPhase}
        (earlier : view.InPhase other otherPhase)
        (otherHeld : otherPhase.lockOf = some taskId)
        (held : (phase.advance call op answer).lockOf = some taskId) :
        other = pid := by
      rcases TaskPhase.lockOf_advance permitted answered held with
          before | ⟨free, _⟩
      · exact registering.exclusive other pid _ _ taskId earlier inPhase
          otherHeld before
      · exact absurd
          (registering.locked other otherPhase taskId earlier otherHeld) free
    rcases inLeft.of_place with ⟨rfl, rfl⟩ | ⟨_, leftEarlier⟩
    · rcases inRight.of_place with ⟨rfl, rfl⟩ | ⟨_, rightEarlier⟩
      · rfl
      · exact (excludes rightEarlier rightHeld leftHeld).symm
    · rcases inRight.of_place with ⟨rfl, rfl⟩ | ⟨_, rightEarlier⟩
      · exact excludes leftEarlier leftHeld rightHeld
      · exact registering.exclusive left right _ _ taskId leftEarlier
          rightEarlier leftHeld rightHeld

/-- A move in which a statement fails. -/
theorem Registering.failure
    {op : TaskOp}
    {reason : AppError}
    (registering : view.Registering)
    (present : view.progress pid = some ⟨call, phase⟩) :
    TaskView.Registering
      (view.place pid ⟨call, phase.advance call op (.error reason)⟩
        view.shared) := by
  have inPhase : view.InPhase pid phase := ⟨call, present⟩
  have fails :
      TaskPhase.FailsTo phase (phase.advance call op (.error reason)) :=
    TaskPhase.failsTo_advance
  have wasHeld
      {other : Nat}
      {otherPhase : TaskPhase}
      {taskId : Nat}
      (inOther :
        Protocol.View.InPhase
          (view.place pid ⟨call, phase.advance call op (.error reason)⟩
            view.shared)
          other otherPhase)
      (held : otherPhase.lockOf = some taskId) :
      ∃ earlier, view.InPhase other earlier ∧ earlier.lockOf = some taskId := by
    rcases inOther.of_place with ⟨rfl, rfl⟩ | ⟨_, earlier⟩
    · exact ⟨phase, inPhase, fails.lockOf held⟩
    · exact ⟨otherPhase, earlier, held⟩
  constructor
  · exact registering.limited
  · intro other otherPhase taskId times inOther carried
    rcases inOther.of_place with ⟨rfl, rfl⟩ | ⟨_, earlier⟩
    · exact registering.times _ _ _ _ inPhase (fails.timesOf carried)
    · exact registering.times _ _ _ _ earlier carried
  · intro other taskId rank inOther
    rcases inOther.of_place with ⟨rfl, creates⟩ | ⟨_, earlier⟩
    · exact (fails.ne_creating creates.symm).elim
    · exact registering.nextRank _ _ _ earlier
  · intro other otherPhase taskId inOther held
    obtain ⟨earlier, wasIn, wasHeld⟩ := wasHeld inOther held
    exact registering.locked other earlier taskId wasIn wasHeld
  · intro left right leftPhase rightPhase taskId inLeft inRight leftHeld
      rightHeld
    obtain ⟨_, wasInLeft, wasHeldLeft⟩ := wasHeld inLeft leftHeld
    obtain ⟨_, wasInRight, wasHeldRight⟩ := wasHeld inRight rightHeld
    exact registering.exclusive left right _ _ taskId wasInLeft wasInRight
      wasHeldLeft wasHeldRight

/-- A call that begins neither holds nor carries anything. -/
theorem Registering.begin
    {config : TaskServerConfig}
    (registering : view.Registering)
    (begun : beginTaskCall config call view.shared = some shared) :
    TaskView.Registering
      (view.place pid ⟨call, taskProtocol.start call⟩ shared) := by
  obtain ⟨sameTables, _, sameLocks⟩ := beginTaskCall_keeps begun
  have earlier
      {other : Nat}
      {otherPhase : TaskPhase}
      (inOther :
        Protocol.View.InPhase
          (view.place pid ⟨call, taskProtocol.start call⟩ shared)
          other otherPhase)
      (relies :
        otherPhase.timesOf.isSome = true ∨ otherPhase.lockOf.isSome = true) :
      view.InPhase other otherPhase := by
    rcases inOther.of_place with ⟨_, rfl⟩ | ⟨_, earlier⟩
    · rw [TaskPhase.timesOf_start, TaskPhase.lockOf_start] at relies
      rcases relies with relies | relies
      · cases relies
      · cases relies
    · exact earlier
  constructor
  · change shared.tables.RunsLimited
    rw [sameTables]
    exact registering.limited
  · intro other otherPhase taskId times inOther carried
    change shared.tables.HasTimes taskId times
    rw [sameTables]
    exact registering.times other otherPhase taskId times
      (earlier inOther (.inl (by rw [carried]; rfl))) carried
  · intro other taskId rank inOther
    change shared.tables.IsNextRank taskId rank
    rw [sameTables]
    exact registering.nextRank other taskId rank
      (earlier inOther (.inr rfl))
  · intro other otherPhase taskId inOther held
    change toString taskId ∈ shared.lockedResources
    rw [sameLocks]
    exact registering.locked other otherPhase taskId
      (earlier inOther (.inr (by rw [held]; rfl))) held
  · intro left right leftPhase rightPhase taskId inLeft inRight leftHeld
      rightHeld
    exact registering.exclusive left right leftPhase rightPhase taskId
      (earlier inLeft (.inr (by rw [leftHeld]; rfl)))
      (earlier inRight (.inr (by rw [rightHeld]; rfl))) leftHeld rightHeld

/-- Every move keeps what the registrations rely on. -/
theorem Registering.step
    {config : TaskServerConfig}
    {before after : TaskView}
    {turn : Turn TaskCall (TaskInput ⊕ AppError)}
    (registering : before.Registering)
    (moves :
      Protocol.Moves (failingTaskServices config) taskProtocol before turn
        after) :
    after.Registering := by
  cases moves with
  | invoke _ begun =>
      exact registering.begin begun
  | @resume pid call phase op input answer shared present permitted
      answered =>
      rcases Host.of_failing answered with
          ⟨_, answered⟩ | ⟨_, ⟨_, rfl⟩, rfl⟩
      · exact registering.answer present permitted answered
      · exact registering.failure present

/-- No call is in a phase before any has begun. -/
theorem Registering.initially
    {start : TaskState}
    (limited : start.tables.RunsLimited) :
    TaskView.Registering (.initial taskProtocol start) := by
  have noPhase
      (pid : Nat)
      (phase : TaskPhase) :
      ¬ Protocol.View.InPhase
        (Protocol.View.initial taskProtocol start) pid phase := by
    rintro ⟨_, present⟩
    cases present
  exact
    { limited
      times := fun pid phase _ _ inPhase => (noPhase pid phase inPhase).elim
      nextRank := fun pid _ _ inPhase => (noPhase pid _ inPhase).elim
      locked := fun pid phase _ inPhase => (noPhase pid phase inPhase).elim
      exclusive := fun pid _ phase _ _ inPhase =>
        (noPhase pid phase inPhase).elim }

end TaskView

/--
Whatever statements fail, and in whatever order the calls of the services, the
retries of the mutex and the statements are interleaved: the runs of a task
with a limit have the ranks `1, ..., n` in the order of their creation, where
`n` is at most the limit, rounded up.
-/
theorem runs_limited
    (config : TaskServerConfig)
    (start : TaskState)
    (limited : start.tables.RunsLimited)
    (turns : List (Turn TaskCall (TaskInput ⊕ AppError)))
    (final : Interleaving TaskState taskProtocol)
    (run :
      Run (Interleaving.Step (failingTaskServices config) fun _ _ => True)
        (.initial taskProtocol start) turns final) :
    final.shared.tables.RunsLimited := by
  have programs
      (call : TaskCall) :
      taskProtocol.Conforms call (taskProtocol.start call)
        ((failingTaskServices config).body call) :=
    TaskPhase.conforms_taskBody call
  obtain ⟨moves, _⟩ := Interleaving.moves_of_run programs run
  have registering :=
    moves.invariant TaskView.Registering
      (fun _ _ _ registering taken => registering.step taken.2)
      (.initially limited)
  exact registering.limited

/-- A limit of one and a half runs. -/
def limitedTask : TaskConfigDto :=
  { minutely with
    times :=
      some { num := 3, den := 2, den_nz := by decide, reduced := by decide } }

/-- Some operations of a call are answered. -/
def answers (pid count : Nat) : List (Turn TaskCall (TaskInput ⊕ AppError)) :=
  List.replicate count (.resume pid (.inl .done))

/--
The task is created and built.  Of two overlapping callbacks one registers a
run while the other waits for the lock, and then fails to count; a third one
registers the second run, and a fourth one finds the limit reached.
-/
def registrationTurns : List (Turn TaskCall (TaskInput ⊕ AppError)) :=
  [.invoke 0 (.createTask 1 1 limitedTask)] ++ answers 0 5 ++
    [.invoke 1 (.build 1 limitedTask)] ++ answers 1 2 ++
    [.invoke 2 (.callback 1), .invoke 3 (.callback 1)] ++
    answers 2 2 ++ answers 3 2 ++ answers 2 4 ++ answers 3 2 ++
    [.resume 3 (.inr (.failure "connection lost"))] ++ answers 3 1 ++
    [.invoke 4 (.callback 1)] ++ answers 4 6 ++
    [.invoke 5 (.callback 1)] ++ answers 5 5

/-- The limit holds there with both runs registered. -/
theorem runs_limited_overlapping :
    ∃ final,
      Run
          (Interleaving.Step (failingTaskServices lenientServer)
            fun _ _ => True)
          (.initial taskProtocol .initial) registrationTurns final ∧
        final.shared.tables.ranksOf 1 = [.finite 1, .finite 2] ∧
        final.shared.tables.RunsLimited := by
  have limited : TaskState.initial.tables.RunsLimited := by
    intro task member
    cases member
  have run
      (final : Interleaving TaskState taskProtocol)
      (executed :
        registrationTurns.foldlM
            (Interleaving.step? (failingTaskServices lenientServer))
            (.initial taskProtocol .initial) =
          some final) :=
    Interleaving.run_of_foldlM executed
  exact ⟨_, run _ rfl, rfl,
    runs_limited lenientServer .initial limited _ _ (run _ rfl)⟩

end Prescott
