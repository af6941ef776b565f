import Prescott.RunStatuses
import Prescott.StoredSchedules

namespace Prescott

/-!
# Requests that fail halfway

Creating and updating a task are several steps in two stores, and nothing is
taken back when a later one fails.  What is left over is decided by the call
that rejects.
-/

namespace TaskOp

/-- A call that is awaited, and so may reject; a build is only dispatched. -/
def isAwaited : TaskOp → Bool
  | .dispatchBuild _ _ => false
  | _ => true

end TaskOp

/-- The task services as they are when any awaited call may reject. -/
abbrev rejectingHost (config : TaskServerConfig) :
    Host taskSignature AppError TaskState (TaskInput ⊕ AppError) :=
  (taskHost config).failing TaskOp.isAwaited

/--
The table of tasks and the entry of the task are what they were, and no build is
left behind whose completion starts the entry.
-/
@[mk_iff]
structure Unchanged (before after : TaskState) (taskId : Nat) : Prop where
  tasks : after.tables.tasks = before.tables.tasks
  entry : after.scheduler.entries taskId = before.scheduler.entries taskId
  builds : after.builds = before.builds

/-- The calls of `createTask` before and at the insert. -/
def TaskOp.PrecedesRow : TaskOp → Prop
  | .findTaskByName _ | .insertTask _ => True
  | _ => False

/--
Where `updateTask` may reject and have changed nothing: at the lookup or the
deletion of the entry, and before the new entry if there was no old one.  The
last write comes after the new entry and the dispatch of its build.
-/
def TaskOp.SparesEntry (entry : Option CronEntry) : TaskOp → Prop
  | .findTaskById _ | .schedulerDelete _ => True
  | .updateTaskConfig _ _ => False
  | _ => entry = none

variable {config : TaskServerConfig}
variable {before after : TaskState}
variable {op : TaskOp}
variable {reason : AppError}

/-- A new row is a change of the table. -/
theorem tasks_ne_of_insertTask
    {data : NewTask}
    {id : Nat}
    {tables next : TaskTables}
    (inserted : tables.insertTask data = .ok (id, next)) :
    next.tasks ≠ tables.tasks := by
  intro same
  have nextId := (TaskTables.nextId_insertTask inserted).2
  rw [same] at nextId
  exact Nat.succ_ne_self _ nextId.symm

/-- What failed requests are judged by: the tasks, the scheduler and the builds. -/
structure SameStores (before after : TaskState) : Prop where
  tasks : after.tables.tasks = before.tables.tasks
  scheduler : after.scheduler = before.scheduler
  builds : after.builds = before.builds

theorem SameStores.refl (state : TaskState) : SameStores state state :=
  ⟨rfl, rfl, rfl⟩

theorem SameStores.trans
    {middle : TaskState}
    (first : SameStores before middle)
    (second : SameStores middle after) :
    SameStores before after :=
  ⟨second.tasks.trans first.tasks, second.scheduler.trans first.scheduler,
    second.builds.trans first.builds⟩

theorem SameStores.unchanged
    (same : SameStores before after)
    (taskId : Nat) :
    Unchanged before after taskId :=
  ⟨same.tasks, by rw [same.scheduler], same.builds⟩

/-- Only `dispatchBuild` adds a build. -/
theorem builds_of_answered
    {input : TaskInput}
    {answer : Except AppError op.Result}
    (answered : taskHost config op input before = some (answer, after))
    (isAwaited : op.isAwaited = true) :
    after.builds = before.builds := by
  cases op with
  | dispatchBuild => cases isAwaited
  | insertTask | insertRun =>
      rcases TaskState.attempt_eq answered with ⟨_, _, _, _, rfl⟩ | ⟨_, _, _, rfl⟩ <;> rfl
  | deleteEnv | runEnv | getEnvChildren | dockerStop | dockerRemove
  | dockerWait | dockerInspectExitCode =>
      obtain ⟨docker, rfl⟩ := TaskState.command_eq answered
      rfl
  | buildEnv | readLog | readMetric | schedulerSchedule | lockResource =>
      simp only [taskHost] at answered
      split at answered <;> cases answered <;> rfl
  | _ =>
      cases answered
      rfl

/-- A call that rejects has written to neither store. -/
theorem sameStores_of_rejected
    {input : TaskInput ⊕ AppError}
    (answered : rejectingHost config op input before = some (.error reason, after)) :
    SameStores before after := by
  rcases Host.of_failing answered with ⟨input, answered⟩ | ⟨_, _, rfl⟩
  · have isAwaited : op.isAwaited = true := by
      cases op <;> first | rfl | cases answered
    refine ⟨congrArg TaskTables.tasks (tables_of_rejected answered), ?_,
      builds_of_answered answered isAwaited⟩
    cases op with
    | schedulerSchedule =>
        simp only [taskHost] at answered
        split at answered
        · cases answered
        · cases answered
          rfl
    | schedulerDelete | schedulerStop | schedulerStart => cases answered
    | _ => exact (taskHost_keeps answered).scheduler rfl
  · exact .refl _

/-- An answer that resolves is one of the host. -/
theorem resolved_of_rejecting
    {input : TaskInput ⊕ AppError}
    {value : op.Result}
    (answered : rejectingHost config op input before = some (.ok value, after)) :
    ∃ input, taskHost config op input before = some (.ok value, after) := by
  rcases Host.of_failing answered with resolved | ⟨_, ⟨_, rejected⟩, _⟩
  · exact resolved
  · cases rejected

/-- A scheduler call that rejects has changed nothing. -/
theorem scheduleExecutable_rejects
    {taskId : Nat}
    {taskConfig : TaskConfigDto}
    (rejects :
      RejectsAt (rejectingHost config)
        (TaskExecutorService.scheduleExecutable taskId taskConfig)
        before op reason after) :
    SameStores before after ∧
      (op = .schedulerExists taskId ∨
        op = .schedulerSchedule taskId taskConfig.config.scheduleConfig) := by
  rcases RejectsAt.of_perform_bind rejects with
      ⟨rfl, ⟨_, answered⟩ | ⟨_, value, _, thrown⟩⟩ | ⟨_, isScheduled, middle, answered, rest⟩
  · exact ⟨sameStores_of_rejected answered, .inl rfl⟩
  · cases value <;> cases thrown
  · obtain ⟨_, read⟩ := resolved_of_rejecting answered
    cases read
    cases exists? : before.scheduler.exists? taskId with
    | true =>
        rw [exists?] at rest
        exact (RejectsAt.not_settled rest).elim
    | false =>
        rw [exists?] at rest
        rcases RejectsAt.of_perform_bind rest with
            ⟨rfl, ⟨_, answered⟩ | ⟨_, _, _, thrown⟩⟩ | ⟨_, _, middle, _, rest⟩
        · exact ⟨sameStores_of_rejected answered, .inr rfl⟩
        · cases thrown
        · -- the build is not awaited
          obtain ⟨rfl, _, answered⟩ := rest.of_perform
          rcases Host.of_failing answered with ⟨_, answered⟩ | ⟨isAwaited, _⟩
          · cases answered
          · cases isAwaited

/-- A task that is created has its row from the insert on. -/
theorem createTask_rejects
    {groupId userId : Nat}
    {taskConfig : TaskConfigDto}
    (rejects :
      RejectsAt (rejectingHost config)
        (TaskService.createTask groupId userId taskConfig) before op reason after) :
    (op.PrecedesRow ∧ SameStores before after) ∨
      (¬op.PrecedesRow ∧ after.tables.tasks ≠ before.tables.tasks) := by
  rcases RejectsAt.of_perform_bind rejects with
      ⟨rfl, ⟨_, answered⟩ | ⟨_, _, answered, _⟩⟩ | ⟨_, found, middle, answered, rest⟩
  · exact .inl ⟨trivial, sameStores_of_rejected answered⟩
  · obtain ⟨_, read⟩ := resolved_of_rejecting answered
    cases read
    exact .inl ⟨trivial, .refl _⟩
  · obtain ⟨_, read⟩ := resolved_of_rejecting answered
    obtain rfl : middle = before := by
      cases read
      rfl
    cases found with
    | some task => exact (RejectsAt.not_settled rest).elim
    | none =>
        rcases RejectsAt.of_perform_bind rest with
            ⟨rfl, ⟨_, answered⟩ | ⟨_, _, _, thrown⟩⟩ | ⟨_, taskId, between, answered, rest⟩
        · exact .inl ⟨trivial, sameStores_of_rejected answered⟩
        · cases thrown
        · obtain ⟨_, answered⟩ := resolved_of_rejecting answered
          rcases TaskState.attempt_eq answered with
              ⟨_, tables, inserted, _, rfl⟩ | ⟨_, _, rejected, _⟩
          · rcases rest.of_bind (fun _ thrown => by cases thrown) with
                scheduling | ⟨_, _, _, settled⟩
            · obtain ⟨same, isCall⟩ := scheduleExecutable_rejects scheduling
              refine .inr ⟨?_, ?_⟩
              · rcases isCall with rfl | rfl <;> exact id
              · rw [same.tasks]
                exact tasks_ne_of_insertTask inserted
            · exact (RejectsAt.not_settled settled).elim
          · cases rejected

/-- A call that writes to neither store and dispatches no build. -/
def TaskOp.KeepsStores (op : TaskOp) : Prop :=
  op.writesTasks = false ∧ op.reschedules = false ∧ op.isAwaited = true

/-- The children are asked for, and then removed as far as it works. -/
theorem deleteAllChildren_awaits
    {envId : String} :
    (TaskExecutorService.deleteAllChildren envId true).AwaitsOnly
      TaskOp.KeepsStores := by
  refine .bind (.perform ⟨rfl, rfl, rfl⟩) fun names => ?_
  exact TaskExecutorService.forAllSettled_awaits (fun _ => .perform ⟨rfl, rfl, rfl⟩) names

/-- What writes to neither store keeps both. -/
theorem SameStores.of_awaits
    {α : Type}
    {program : TaskProgram α}
    {outcome : Except AppError α}
    (only : program.AwaitsOnly TaskOp.KeepsStores)
    (settles : Settles (rejectingHost config) program before outcome after) :
    SameStores before after := by
  refine only.preserves (SameStores before) ?_ settles (.refl before)
  intro op input state answer next ⟨noTasks, noSchedule, isAwaited⟩ same answered
  refine same.trans ?_
  rcases Host.of_failing answered with ⟨_, answered⟩ | ⟨_, _, rfl⟩
  · have keeps := taskHost_keeps answered
    exact ⟨keeps.tasks noTasks, keeps.scheduler noSchedule,
      builds_of_answered answered isAwaited⟩
  · exact .refl _

/-- What is awaited for every child is attempted. -/
theorem not_rejectsAt_forAllSettled
    {names : List String} :
    ¬ RejectsAt (rejectingHost config)
      (TaskExecutorService.forAllSettled
        (fun envHandle => envHandle.delete true) names)
      before op reason after := by
  induction names generalizing before with
  | nil => exact RejectsAt.not_settled
  | cons name names inductionHypothesis =>
      intro rejects
      have goesOn : ∀ _ : Except AppError Unit,
          TaskExecutorService.forAllSettled (fun envHandle => envHandle.delete true)
            names ≠ .settled (.error reason) := by
        intro _ thrown
        cases names <;> cases thrown
      rcases RejectsAt.of_bind goesOn rejects with first | ⟨_, _, _, later⟩
      · exact RejectsAt.not_attempt first
      · exact inductionHypothesis later

/-- Only the listing of the children can reject. -/
theorem deleteAllChildren_rejects
    {envId : String}
    (rejects :
      RejectsAt (rejectingHost config)
        (TaskExecutorService.deleteAllChildren envId true) before op reason after) :
    op = .getEnvChildren envId ∧ SameStores before after := by
  have same := SameStores.of_awaits deleteAllChildren_awaits rejects.settles
  rcases rejects.of_perform_bind with ⟨rfl, _⟩ | ⟨_, names, middle, _, rest⟩
  · exact ⟨rfl, same⟩
  · exact (not_rejectsAt_forAllSettled rest).elim

/-- The state with the entry of the task deleted. -/
abbrev TaskState.unscheduled (state : TaskState) (taskId : Nat) : TaskState :=
  { state with scheduler := state.scheduler.deleteTask taskId }

theorem deleteExecutable_settles
    {taskId : Nat}
    (settles :
      Settles (rejectingHost config) (TaskExecutorService.deleteExecutable taskId)
        before (.ok ()) after) :
    SameStores (before.unscheduled taskId) after := by
  obtain ⟨_, middle, deleted, rest⟩ := settles.resolved_bind
  obtain ⟨_, answered⟩ := Settles.perform_iff.mp deleted
  obtain ⟨_, answered⟩ := resolved_of_rejecting answered
  cases answered
  have only :
      (do
          TaskExecutorService.deleteAllChildren (buildTaskIdentifier taskId) true
          TaskOp.perform (.deleteEnv (buildTaskIdentifier taskId) true) :
        TaskProgram Unit).AwaitsOnly TaskOp.KeepsStores :=
    .bind deleteAllChildren_awaits fun _ => .perform ⟨rfl, rfl, rfl⟩
  exact SameStores.of_awaits only rest

/-- The entry is deleted before anything else of the executable. -/
theorem deleteExecutable_rejects
    {taskId : Nat}
    (rejects :
      RejectsAt (rejectingHost config) (TaskExecutorService.deleteExecutable taskId)
        before op reason after) :
    (op = .schedulerDelete taskId ∧ SameStores before after) ∨
      ((op = .getEnvChildren (buildTaskIdentifier taskId) ∨
          op = .deleteEnv (buildTaskIdentifier taskId) true) ∧
        SameStores (before.unscheduled taskId) after) := by
  rcases RejectsAt.of_perform_bind rejects with
      ⟨rfl, ⟨_, answered⟩ | ⟨_, _, _, thrown⟩⟩ | ⟨_, _, middle, answered, rest⟩
  · exact .inl ⟨rfl, sameStores_of_rejected answered⟩
  · cases thrown
  · obtain ⟨_, answered⟩ := resolved_of_rejecting answered
    cases answered
    rcases rest.of_bind (fun _ thrown => by cases thrown) with
        listing | ⟨_, _, listed, last⟩
    · obtain ⟨isCall, same⟩ := deleteAllChildren_rejects listing
      exact .inr ⟨.inl isCall, same⟩
    · obtain ⟨isCall, _, answered⟩ := last.of_perform
      exact .inr ⟨.inr isCall,
        (SameStores.of_awaits deleteAllChildren_awaits listed).trans
          (sameStores_of_rejected answered)⟩

/-- Without an entry the task gets one, and its build is dispatched. -/
theorem scheduleExecutable_settles
    {taskId : Nat}
    {taskConfig : TaskConfigDto}
    (absent : before.scheduler.entries taskId = none)
    (settles :
      Settles (rejectingHost config)
        (TaskExecutorService.scheduleExecutable taskId taskConfig)
        before (.ok ()) after) :
    after.builds ≠ before.builds := by
  obtain ⟨isScheduled, middle, asked, rest⟩ := settles.resolved_bind
  obtain ⟨_, answered⟩ := Settles.perform_iff.mp asked
  obtain ⟨_, read⟩ := resolved_of_rejecting answered
  cases read
  have notThere : before.scheduler.exists? taskId = false := by
    simp [CronScheduler.exists?, absent]
  rw [notThere] at rest
  obtain ⟨_, scheduled, scheduling, dispatching⟩ := rest.resolved_bind
  obtain ⟨_, answered⟩ := Settles.perform_iff.mp scheduling
  obtain ⟨_, answered⟩ := resolved_of_rejecting answered
  obtain ⟨_, dispatched⟩ := Settles.perform_iff.mp dispatching
  obtain ⟨_, dispatched⟩ := resolved_of_rejecting dispatched
  cases dispatched
  have same := builds_of_answered answered rfl
  intro unchanged
  simpa [same] using congrArg List.length unchanged

section UpdateTask

variable {taskId : Nat}

/-- With the entry deleted, only an absent one is what it was. -/
theorem unchanged_of_unscheduled
    (same : SameStores (before.unscheduled taskId) after) :
    Unchanged before after taskId ↔ before.scheduler.entries taskId = none := by
  have gone : after.scheduler.entries taskId = none := by
    rw [same.scheduler]
    exact Function.update_self ..
  constructor
  · intro unchanged
    rw [← unchanged.entry, gone]
  · intro absent
    exact ⟨same.tasks, by rw [gone, absent], same.builds⟩

theorem updateExecutable_rejects
    {newConfig : TaskConfigDto}
    (rejects :
      RejectsAt (rejectingHost config)
        (TaskExecutorService.updateExecutable taskId newConfig)
        before op reason after) :
    Unchanged before after taskId ↔
      op.SparesEntry (before.scheduler.entries taskId) := by
  rcases rejects.of_bind (fun _ thrown => by cases thrown) with
      deleting | ⟨_, middle, deleted, scheduling⟩
  · rcases deleteExecutable_rejects deleting with
        ⟨rfl, same⟩ | ⟨rfl | rfl, same⟩
    · exact iff_of_true (same.unchanged taskId) trivial
    · exact unchanged_of_unscheduled same
    · exact unchanged_of_unscheduled same
  · obtain ⟨same, rfl | rfl⟩ := scheduleExecutable_rejects scheduling
    all_goals
      exact unchanged_of_unscheduled ((deleteExecutable_settles deleted).trans same)

theorem updateExecutable_settles
    {newConfig : TaskConfigDto}
    (settles :
      Settles (rejectingHost config)
        (TaskExecutorService.updateExecutable taskId newConfig)
        before (.ok ()) after) :
    after.builds ≠ before.builds := by
  obtain ⟨_, middle, deleted, scheduled⟩ := settles.resolved_bind
  have same := deleteExecutable_settles deleted
  have absent : middle.scheduler.entries taskId = none := by
    rw [same.scheduler]
    exact Function.update_self ..
  rw [← same.builds]
  exact scheduleExecutable_settles absent scheduled

/-- An update deletes the old entry first and stores the new config last. -/
theorem updateTask_rejects
    {taskConfig : LocalTaskConfig}
    (rejects :
      RejectsAt (rejectingHost config) (TaskService.updateTask taskId taskConfig)
        before op reason after) :
    Unchanged before after taskId ↔
      op.SparesEntry (before.scheduler.entries taskId) := by
  rcases rejects.of_bind (fun _ thrown => by cases thrown) with
      finding | ⟨task, found, finding, updating⟩
  · have same := SameStores.of_awaits
      (.bind (.perform ⟨rfl, rfl, rfl⟩) fun task => by cases task <;> trivial)
      finding.settles
    rcases finding.of_perform_bind with ⟨rfl, _⟩ | ⟨_, task, _, _, rest⟩
    · exact iff_of_true (same.unchanged taskId) trivial
    · cases task <;> exact (RejectsAt.not_settled rest).elim
  · have same := SameStores.of_awaits
      (.bind (.perform ⟨rfl, rfl, rfl⟩) fun task => by cases task <;> trivial)
      finding
    have sameUnchanged : Unchanged before after taskId ↔ Unchanged found after taskId := by
      rw [unchanged_iff, unchanged_iff, same.tasks, same.scheduler, same.builds]
    rw [sameUnchanged, ← same.scheduler]
    rcases updating.of_bind (fun _ thrown => by cases thrown) with
        executable | ⟨_, scheduled, executable, storing⟩
    · exact updateExecutable_rejects executable
    · obtain ⟨rfl, _, answered⟩ := storing.of_perform
      -- the build of the new entry has been dispatched
      refine iff_of_false (fun unchanged => ?_) id
      have stored := (sameStores_of_rejected answered).builds
      exact updateExecutable_settles executable (stored.symm.trans unchanged.builds)

end UpdateTask

/--
A creation that rejects has changed nothing if and only if the call at which it
does is not after the insert, and an update if and only if that call spares the
entry of its task.
-/
theorem rejected_unchanged_iff
    (config : TaskServerConfig)
    (before after : TaskState)
    (op : TaskOp)
    (reason : AppError) :
    (∀ groupId userId taskConfig,
      RejectsAt (rejectingHost config)
        (TaskService.createTask groupId userId taskConfig) before op reason after →
      (Unchanged before after before.tables.tasks.nextId ↔ op.PrecedesRow)) ∧
    (∀ taskId taskConfig,
      RejectsAt (rejectingHost config)
        (TaskService.updateTask taskId taskConfig) before op reason after →
      (Unchanged before after taskId ↔
        op.SparesEntry (before.scheduler.entries taskId))) := by
  refine ⟨fun groupId userId taskConfig rejects => ?_, fun taskId taskConfig rejects =>
    updateTask_rejects rejects⟩
  rcases createTask_rejects rejects with ⟨precedes, same⟩ | ⟨follows, changed⟩
  · exact iff_of_true (same.unchanged _) precedes
  · exact iff_of_false (fun unchanged => changed unchanged.tasks) follows

/-- The first group has an active task whose entry ticks. -/
def tickingTask : TaskState :=
  { oneTask with
    scheduler := (CronScheduler.empty.scheduleTask 1 "* * * * *").start 1 }

/-- The insert of a creation fails, and so does the deletion of an old entry. -/
theorem rejected_unchanged_iff_early :
    Unchanged TaskState.initial TaskState.initial 1 ∧
      Unchanged tickingTask tickingTask 1 := by
  refine ⟨?_, ?_⟩
  · refine ((rejected_unchanged_iff strictServer .initial .initial
      (.insertTask ⟨"1_report", 1, 1, minutely, true⟩) (.failure "SQLITE_FULL")).1
        1 1 minutely ?_).mpr trivial
    exact .later
      (show rejectingHost _ _ (.inl .done) _ = some (.ok none, _) from rfl)
      (.here (show rejectingHost _ _ (.inr _) _ = some (.error _, _) from rfl) rfl)
  · refine ((rejected_unchanged_iff strictServer tickingTask tickingTask
      (.schedulerDelete 1) (.failure "not deleted")).2
        1 minutely.config ?_).mpr trivial
    exact .later
      (show rejectingHost _ _ (.inl .done) _ = some (.ok (some _), _) from rfl)
      (.here (show rejectingHost _ _ (.inr _) _ = some (.error _, _) from rfl) rfl)

/--
A creation whose expression the scheduler rejects leaves the row of the task,
and an update with it leaves the task without its entry.
-/
theorem rejected_changes :
    (∃ after,
      Settles (rejectingHost strictServer)
          (TaskService.createTask 1 1 unschedulable) .initial
          (.error (.failure "cron expression is invalid")) after ∧
        after.tables.tasks.rows.map Task.active = [true] ∧
        ¬Unchanged .initial after 1) ∧
    ∃ after,
      Settles (rejectingHost strictServer)
          (TaskService.updateTask 1 unschedulable.config) tickingTask
          (.error (.failure "cron expression is invalid")) after ∧
        tickingTask.scheduler.isRunning 1 = true ∧
        after.scheduler.entries 1 = none ∧
        ¬Unchanged tickingTask after 1 := by
  refine ⟨⟨_, Settles.of_runAlone
      [.inl .done, .inl .done, .inl .done, .inl .done] rfl, rfl, ?_⟩,
    ⟨_, Settles.of_runAlone
      [.inl .done, .inl .done, .inl (.children []), .inl .done, .inl .done,
        .inl .done] rfl, rfl, rfl, ?_⟩⟩
  · intro unchanged
    cases congrArg Table.nextId unchanged.tasks
  · intro unchanged
    cases unchanged.entry

end Prescott
