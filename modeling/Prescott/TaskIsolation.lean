import Prescott.TaskRoutes

namespace Prescott

/-!
# Isolation of the tasks of different groups

The hook decides on the group in the path and the handler acts on the task in
the path; neither compares the two.  A request that is let through touches the
addressed task whenever there is something to touch, whatever its group is.
-/

/-- An operation reads or changes a task, its runs, schedule or environment. -/
def TaskOp.Touches (state : TaskState) (taskId : Nat) : TaskOp → Prop
  | .findTaskById id | .updateTaskConfig id _ | .deleteTaskById id
  | .setTaskActive id _ =>
      id = taskId ∧ ∃ task ∈ state.tables.tasks.rows, task.id = taskId
  | .findTaskByName name =>
      ∃ task ∈ state.tables.tasks.rows, task.name = name ∧ task.id = taskId
  | .findTasksByActive active =>
      ∃ task ∈ state.tables.tasks.rows,
        task.active = active ∧ task.id = taskId
  | .findRunById id | .updateRun id _ =>
      ∃ run ∈ state.tables.taskRuns.rows, run.id = id ∧ run.taskId = taskId
  | .findRunsByTask id | .countRunsByTask id =>
      id = taskId ∧ ∃ run ∈ state.tables.taskRuns.rows, run.taskId = taskId
  | .findRunsByTaskAndStatus id status
  | .updateRunsByTaskAndStatus id status _ =>
      id = taskId ∧
        ∃ run ∈ state.tables.taskRuns.rows,
          run.taskId = taskId ∧ run.status = status
  | .insertRun id _ _ | .schedulerExists id | .schedulerSchedule id _
  | .schedulerStop id | .schedulerDelete id | .schedulerStart id
  | .dispatchBuild id _ | .flushLog id | .flushMetric id =>
      id = taskId
  | .buildEnv dto => dto.imageTag = buildTaskIdentifier taskId
  | .deleteEnv envId _ | .runEnv envId _ | .getEnvChildren envId =>
      envId = buildTaskIdentifier taskId
  | .dockerStop name _ | .dockerRemove name _ | .dockerWait name
  | .dockerInspectExitCode name =>
      ∃ container image,
        state.docker.containerOf name = some container ∧
          state.docker.images (buildTaskIdentifier taskId) = some image ∧
          container.imageId = image.id
  | .readLog runHandle | .readMetric runHandle | .enqueue runHandle =>
      runHandle.taskId = taskId
  | .insertTask _ | .lockResource _ | .unlockResource _ | .setTimeout _
  | .leaveQueue =>
      False

namespace TaskRequest

/-- The hook lets the request through. -/
def LetThrough (request : TaskRequest) (auth : AuthorizationState) : Prop :=
  Settles authorizationHost request.hook auth (.ok ()) auth

/-- What the first statement of the handler looks for is there. -/
def Addressed (request : TaskRequest) (tables : TaskTables) : Prop :=
  match request.route with
  | .getRuns =>
      ∃ run ∈ tables.taskRuns.rows, run.taskId = request.taskId
  | .searchLogs runId _ _ | .searchMetrics runId _ _
  | .aggregateMetrics runId _ _ =>
      ∃ run ∈ tables.taskRuns.rows,
        run.id = runId ∧ run.taskId = request.taskId
  | _ =>
      ∃ task ∈ tables.tasks.rows, task.id = request.taskId

/-- The handler comes to read or change the task of the path. -/
def Touching
    (request : TaskRequest)
    (config : TaskServerConfig)
    (before : TaskState) :
    Prop :=
  ∃ op reached,
    Awaits (taskHost config) (request.handler config)
        before op reached ∧
      op.Touches reached request.taskId

/-- The task of the path belongs to the group of the path. -/
def NamesOwnGroup (request : TaskRequest) (tables : TaskTables) : Prop :=
  ∃ task ∈ tables.tasks.rows,
    task.id = request.taskId ∧ task.groupId = request.groupId

/-- The caller owns the group of the task or holds the permission in it. -/
def HasRight
    (request : TaskRequest)
    (auth : AuthorizationState)
    (tables : TaskTables) :
    Prop :=
  ∃ task ∈ tables.tasks.rows,
    task.id = request.taskId ∧
      ∃ group ∈ auth.groups.rows,
        group.id = task.groupId ∧
          (group.ownerId = request.caller ∨
            request.route.permission ∈
              auth.permissionsOf task.groupId request.caller)

/-- A request let through touches its task only within the group it names. -/
def Isolated
    (request : TaskRequest)
    (config : TaskServerConfig)
    (auth : AuthorizationState)
    (before : TaskState) :
    Prop :=
  request.LetThrough auth →
  request.Touching config before →
  request.NamesOwnGroup before.tables

/-- A request let through touches its task only by a right in its group. -/
def Confined
    (request : TaskRequest)
    (config : TaskServerConfig)
    (auth : AuthorizationState)
    (before : TaskState) :
    Prop :=
  request.LetThrough auth →
  request.Touching config before →
  request.HasRight auth before.tables

end TaskRequest

namespace TaskIsolation

variable {config : TaskServerConfig}
variable {before reached : TaskState}
variable {awaited : TaskOp}
variable {α : Type}

/-- Past `findByIdThrowable` there is a task. -/
theorem of_findByIdThrowable
    {id : Nat}
    {next : Task → TaskProgram α}
    (awaits :
      Awaits (taskHost config) (TaskDao.findByIdThrowable id >>= next)
        before awaited reached) :
    (awaited = .findTaskById id ∧ reached = before) ∨
      ∃ task ∈ before.tables.tasks.rows, task.id = id := by
  simp only [TaskDao.findByIdThrowable, bind_assoc] at awaits
  rcases Awaits.of_perform_bind awaits with
      first | ⟨_, found, _, answered, rest⟩
  · exact .inl first
  · cases answered
    cases found : before.tables.taskOf id with
    | none =>
        rw [found] at rest
        exact (Awaits.not_settled rest).elim
    | some task =>
        obtain ⟨member, sameId⟩ := Table.mem_of_first found
        exact .inr ⟨task, member, beq_iff_eq.mp sameId⟩

/-- Past `getOneThrowableByTaskId` the run belongs to the task. -/
theorem of_getOneThrowableByTaskId
    {taskId runId : Nat}
    {next : TaskRun → TaskProgram α}
    (awaits :
      Awaits (taskHost config)
        (TaskRunService.getOneThrowableByTaskId taskId runId >>= next)
        before awaited reached) :
    (awaited = .findRunById runId ∧ reached = before) ∨
      ∃ run ∈ before.tables.taskRuns.rows,
        run.id = runId ∧ run.taskId = taskId := by
  simp only [TaskRunService.getOneThrowableByTaskId,
    TaskRunService.getOneThrowable, bind_assoc] at awaits
  rcases Awaits.of_perform_bind awaits with
      first | ⟨_, answer, _, answered, rest⟩
  · exact .inl first
  · cases answered
    cases found :
        before.tables.taskRuns.first fun run => run.id == runId with
    | none =>
        rw [found] at rest
        exact (Awaits.not_settled rest).elim
    | some run =>
        rw [found] at rest
        obtain ⟨member, sameId⟩ := Table.mem_of_first found
        by_cases sameTask : run.taskId = taskId
        · exact .inr ⟨run, member, beq_iff_eq.mp sameId, sameTask⟩
        · simp only [pure_bind, ne_eq, sameTask, not_false_eq_true,
            if_true] at rest
          exact (Awaits.not_settled rest).elim

end TaskIsolation

namespace TaskRequest

variable {request : TaskRequest}
variable {config : TaskServerConfig}
variable {before reached : TaskState}
variable {awaited : TaskOp}

/-- The statement a handler begins with. -/
def firstOp (request : TaskRequest) : TaskOp :=
  match request.route with
  | .getRuns => .findRunsByTask request.taskId
  | .searchLogs runId _ _ | .searchMetrics runId _ _
  | .aggregateMetrics runId _ _ => .findRunById runId
  | _ => .findTaskById request.taskId

/-- It touches the task exactly when it finds what it looks for. -/
theorem firstOp_touches_iff :
    request.firstOp.Touches before request.taskId ↔
      request.Addressed before.tables := by
  unfold firstOp Addressed
  cases request.route with
  | getTask => exact and_iff_right rfl
  | deleteTask => exact and_iff_right rfl
  | updateTask taskConfig => exact and_iff_right rfl
  | stopTask => exact and_iff_right rfl
  | startTask => exact and_iff_right rfl
  | getRuns => exact and_iff_right rfl
  | searchLogs runId search paging => exact Iff.rfl
  | searchMetrics runId search paging => exact Iff.rfl
  | aggregateMetrics runId search apply => exact Iff.rfl

theorem awaits_firstOp :
    Awaits (taskHost config) (request.handler config)
      before request.firstOp before := by
  unfold handler firstOp
  cases request.route with
  | getTask => exact .here
  | deleteTask => exact .here
  | updateTask taskConfig => exact .here
  | stopTask => exact .here
  | startTask => exact .here
  | getRuns => exact .here
  | searchLogs runId search paging => exact .here
  | searchMetrics runId search paging => exact .here
  | aggregateMetrics runId search apply => exact .here

/-- Nothing but the first statement is awaited unless it finds something. -/
theorem first_or_addressed
    (awaits :
      Awaits (taskHost config) (request.handler config)
        before awaited reached) :
    (awaited = request.firstOp ∧ reached = before) ∨
      request.Addressed before.tables := by
  unfold handler at awaits
  unfold firstOp Addressed
  cases route : request.route with
  | getTask =>
      simp only [route, TaskService.getTask, bind_assoc] at awaits
      exact TaskIsolation.of_findByIdThrowable awaits
  | deleteTask =>
      simp only [route, TaskService.deleteTask, bind_assoc] at awaits
      exact TaskIsolation.of_findByIdThrowable awaits
  | updateTask taskConfig =>
      simp only [route, TaskService.updateTask, bind_assoc] at awaits
      exact TaskIsolation.of_findByIdThrowable awaits
  | stopTask =>
      simp only [route, TaskService.stopTask, bind_assoc] at awaits
      exact TaskIsolation.of_findByIdThrowable awaits
  | startTask =>
      simp only [route, TaskService.startTask, bind_assoc] at awaits
      exact TaskIsolation.of_findByIdThrowable awaits
  | getRuns =>
      simp only [route] at awaits
      rcases Awaits.of_perform_bind awaits with first | ⟨_, _, _, _, rest⟩
      · exact .inl first
      · exact (Awaits.not_settled rest).elim
  | searchLogs runId search paging =>
      simp only [route, TaskRunService.searchLogs, bind_assoc] at awaits
      exact TaskIsolation.of_getOneThrowableByTaskId awaits
  | searchMetrics runId search paging =>
      simp only [route, TaskRunService.searchMetrics, bind_assoc] at awaits
      exact TaskIsolation.of_getOneThrowableByTaskId awaits
  | aggregateMetrics runId search apply =>
      simp only [route, TaskRunService.aggregateMetrics, bind_assoc]
        at awaits
      exact TaskIsolation.of_getOneThrowableByTaskId awaits

/-- A handler touches its task exactly when its first statement does. -/
theorem touching_iff :
    request.Touching config before ↔ request.Addressed before.tables := by
  constructor
  · rintro ⟨op, reached, awaits, touches⟩
    rcases first_or_addressed awaits with ⟨rfl, rfl⟩ | addressed
    · exact firstOp_touches_iff.mp touches
    · exact addressed
  · intro addressed
    exact ⟨_, _, awaits_firstOp, firstOp_touches_iff.mpr addressed⟩

end TaskRequest

/--
For every request and every state, the request respects the group of the task
if and only if it is refused by the hook, addresses nothing, or the task
belongs to the group of the path.  It respects the rights of its caller if and
only if it is refused, addresses nothing, or the caller has the right.
-/
theorem taskRoutes_isolated_iff
    (request : TaskRequest)
    (config : TaskServerConfig)
    (auth : AuthorizationState)
    (before : TaskState) :
    (request.Isolated config auth before ↔
        ¬ request.LetThrough auth ∨
          ¬ request.Addressed before.tables ∨
          request.NamesOwnGroup before.tables) ∧
      (request.Confined config auth before ↔
        ¬ request.LetThrough auth ∨
          ¬ request.Addressed before.tables ∨
          request.HasRight auth before.tables) := by
  unfold TaskRequest.Isolated TaskRequest.Confined
  rw [TaskRequest.touching_iff]
  exact ⟨by rw [imp_iff_not_or, imp_iff_not_or],
    by rw [imp_iff_not_or, imp_iff_not_or]⟩

/-- Two registered users. -/
def twoUsers : UserTable :=
  match (UserTable.single ⟨"ada", "Ada", "ada@host", "#"⟩).insert
      ⟨"eve", "Eve", "eve@host", "#"⟩ with
  | .ok users => users
  | .error _ => .empty

/-- Two groups, each created by one of the two users. -/
def twoGroups : AuthorizationState :=
  { AuthorizationState.initial twoUsers .empty .empty [] with
    groups :=
      (Table.empty.insert (Group.mk · "first" 1) fun _ => rfl).insert
        (Group.mk · "second" 2) fun _ => rfl
    userGroups :=
      (Table.empty.insert (UserGroup.mk · 1 1) fun _ => rfl).insert
        (UserGroup.mk · 2 2) fun _ => rfl }

/-- The config of a task that runs every minute. -/
def minutely : TaskConfigDto where
  name := "report"
  envInfo := { name := "alpine" }
  config :=
    { scheduleConfig := "* * * * *"
      appConfig := { steps := [] } }

/-- The first group has an active task. -/
def oneTask : TaskState :=
  { TaskState.initial with
    tables :=
      match TaskTables.empty.insertTask
          { name := "1_report"
            userId := 1
            groupId := 1
            config := minutely
            active := true } with
      | .ok (_, tables) => tables
      | .error _ => .empty }

/-- The owner of the second group reads the task of the first one. -/
theorem taskRoutes_not_isolated :
    ∃ config,
      ¬ TaskRequest.Isolated ⟨2, 2, 1, .getTask⟩ config twoGroups oneTask ∧
        ¬ TaskRequest.Confined ⟨2, 2, 1, .getTask⟩ config twoGroups
          oneTask := by
  have letThrough :
      TaskRequest.LetThrough ⟨2, 2, 1, .getTask⟩ twoGroups :=
    Settles.of_runAlone [()] rfl
  refine ⟨⟨5, fun _ => true, fun _ => none, Json.fractionFormat⟩, fun isolated => ?_,
    fun confined => ?_⟩
  · have touching :=
      isolated letThrough
        ⟨_, oneTask, .here, rfl, _, List.mem_singleton.mpr rfl, rfl⟩
    obtain ⟨task, member, _, sameGroup⟩ := touching
    cases List.mem_singleton.mp member
    cases sameGroup
  · have touching :=
      confined letThrough
        ⟨_, oneTask, .here, rfl, _, List.mem_singleton.mpr rfl, rfl⟩
    obtain ⟨task, member, _, group, groupMember, sameId, right⟩ := touching
    cases List.mem_singleton.mp member
    have isFirst : group = ⟨1, "first", 1⟩ :=
      Table.eq_of_key groupMember List.mem_cons_self sameId
    subst isFirst
    rcases right with isOwner | permitted
    · cases isOwner
    · cases permitted

end Prescott
