import Prescott.CronActivity
import Prescott.TaskSchedules

namespace Prescott

/-!
# Starting a task again

What `startTask` and the build that it dispatches bring about while no other
call takes part.  Whether the task runs again depends on what the calls before
have left in the scheduler: an entry that stands still is left alone.
-/

/-- A container terminates. -/
def TaskState.exit (state : TaskState) (event : String × Int) : TaskState :=
  { state with docker := state.docker.exit event.1 event.2 }

/-- The host of a call that runs alone while containers terminate. -/
def aloneHost (config : TaskServerConfig) :
    Host taskSignature AppError TaskState
      (List (String × Int) × TaskInput) :=
  (taskHost config).disturbed TaskState.exit

/-- Containers have terminated, and nothing else has happened. -/
def TaskState.Exits (before after : TaskState) : Prop :=
  ∃ docker,
    docker.images = before.docker.images ∧ after = { before with docker }

theorem TaskState.exits_foldl
    {state : TaskState}
    (events : List (String × Int)) :
    state.Exits (events.foldl TaskState.exit state) := by
  induction events generalizing state with
  | nil => exact ⟨state.docker, rfl, rfl⟩
  | cons event events inductionHypothesis =>
      obtain ⟨docker, sameImages, same⟩ :=
        @inductionHypothesis (state.exit event)
      exact ⟨docker, sameImages, same⟩

/-- The image of the task is there. -/
def TaskState.HasImage (state : TaskState) (taskId : Nat) : Prop :=
  (state.docker.images (buildTaskIdentifier taskId)).isSome = true

/-- An entry is started, carries the stored schedule, and has its image. -/
def TaskState.Scheduled (state : TaskState) (taskId : Nat) : Prop :=
  ∃ entry taskConfig,
    state.scheduler.entries taskId = some entry ∧
      entry.running = true ∧
      state.tables.HasConfig taskId taskConfig ∧
      entry.scheduleConfig = taskConfig.config.scheduleConfig ∧
      state.HasImage taskId

/--
The task is scheduled once `startTask` has resolved, or, where that has
dispatched a build, once the build has succeeded.
-/
def TaskState.StartsAgain
    (config : TaskServerConfig)
    (before : TaskState)
    (taskId : Nat) :
    Prop :=
  ∀ started,
    Settles (aloneHost config) (TaskService.startTask taskId) before (.ok ())
      started →
    (started.builds = before.builds → started.Scheduled taskId) ∧
      ∀ taskConfig begun after,
        started.builds = before.builds ++ [(taskId, taskConfig)] →
        beginTaskCall config (.build taskId taskConfig) started =
          some begun →
        Settles (aloneHost config)
          (TaskExecutorService.buildAndStart taskId taskConfig) begun (.ok ())
          after →
        after.Scheduled taskId

section Alone

variable {config : TaskServerConfig}
variable {op : TaskOp}
variable {before after : TaskState}
variable {taskId : Nat}

/-- Containers terminate and then an operation is answered. -/
theorem answered_of_alone
    {answer : Except AppError op.Result}
    (settles :
      Settles (aloneHost config) (TaskOp.perform op) before answer after) :
    ∃ exited input,
      before.Exits exited ∧
        taskHost config op input exited = some (answer, after) := by
  obtain ⟨⟨events, input⟩, answered⟩ := Settles.perform_iff.mp settles
  exact ⟨_, input, TaskState.exits_foldl events, answered⟩

/-- `scheduleExecutable` leaves an entry alone, or it dispatches a build. -/
theorem scheduleExecutable_eq
    {taskConfig : TaskConfigDto}
    (settles :
      Settles (aloneHost config)
        (TaskExecutorService.scheduleExecutable taskId taskConfig) before
        (.ok ()) after) :
    (before.scheduler.exists? taskId = true ∧ before.Exits after) ∨
      (before.scheduler.exists? taskId = false ∧
        TaskState.Exits
          { before with
            scheduler :=
              before.scheduler.scheduleTask taskId
                taskConfig.config.scheduleConfig
            builds := before.builds ++ [(taskId, taskConfig)] }
          after) := by
  obtain ⟨isEntry, _, asks, rest⟩ := settles.resolved_bind
  obtain ⟨_, _, ⟨docker, sameImages, rfl⟩, answered⟩ := answered_of_alone asks
  obtain ⟨shape, rfl⟩ := Prod.mk.inj (Option.some.inj answered)
  have found : before.scheduler.exists? taskId = isEntry :=
    Except.ok.inj shape
  cases isEntry with
  | true =>
      obtain ⟨_, rfl⟩ := Settles.pure_iff.mp rest
      exact .inl ⟨found, docker, sameImages, rfl⟩
  | false =>
      obtain ⟨_, _, schedules, rest⟩ := rest.resolved_bind
      obtain ⟨_, _, ⟨scheduleDocker, scheduleImages, rfl⟩, answered⟩ :=
        answered_of_alone schedules
      simp only [taskHost] at answered
      split at answered
      · cases answered
        obtain ⟨_, _, ⟨dispatchDocker, dispatchImages, rfl⟩, answered⟩ :=
          answered_of_alone rest
        cases answered
        exact .inr ⟨found, dispatchDocker,
          dispatchImages.trans (scheduleImages.trans sameImages), rfl⟩
      · cases answered

/-- `startTask` schedules an inactive task with its stored config. -/
theorem startTask_eq
    {task : Task}
    (member : task ∈ before.tables.tasks.rows)
    (inactive : task.active = false)
    (settles :
      Settles (aloneHost config) (TaskService.startTask task.id) before (.ok ())
        after) :
    (before.scheduler.exists? task.id = true ∧
        TaskState.Exits
          { before with tables := before.tables.setActive task.id true }
          after) ∨
      (before.scheduler.exists? task.id = false ∧
        TaskState.Exits
          { before with
            tables := before.tables.setActive task.id true
            scheduler :=
              before.scheduler.scheduleTask task.id
                task.config.config.scheduleConfig
            builds := before.builds ++ [(task.id, task.config)] }
          after) := by
  simp only [TaskService.startTask, TaskDao.findByIdThrowable, bind_assoc]
    at settles
  obtain ⟨found, _, looks, rest⟩ := settles.resolved_bind
  obtain ⟨_, _, ⟨docker, sameImages, rfl⟩, answered⟩ := answered_of_alone looks
  cases found with
  | none =>
      obtain ⟨_, _, throws, _⟩ := rest.resolved_bind
      cases (Settles.throw_iff.mp throws).1
  | some row =>
      obtain ⟨rowMember, sameId, rfl⟩ := TaskState.task_of_found answered
      have sameRow : row = task := Table.eq_of_key rowMember member sameId
      subst sameRow
      simp only [pure_bind, inactive, Bool.false_eq_true, if_false] at rest
      obtain ⟨_, middle, schedules, rest⟩ := rest.resolved_bind
      obtain ⟨_, _, ⟨activeDocker, activeImages, rfl⟩, answered⟩ :=
        answered_of_alone rest
      cases answered
      rcases scheduleExecutable_eq schedules with
          ⟨found, middleDocker, middleImages, rfl⟩ |
            ⟨found, middleDocker, middleImages, rfl⟩
      · exact .inl ⟨found, activeDocker,
          activeImages.trans (middleImages.trans sameImages), rfl⟩
      · exact .inr ⟨found, activeDocker,
          activeImages.trans (middleImages.trans sameImages), rfl⟩

/-- A build that succeeds starts the entry, and the image is there. -/
theorem buildAndStart_eq
    {taskConfig : TaskConfigDto}
    (settles :
      Settles (aloneHost config)
        (TaskExecutorService.buildAndStart taskId taskConfig) before (.ok ())
        after) :
    after.scheduler = before.scheduler.start taskId ∧
      after.tables = before.tables ∧
      after.HasImage taskId := by
  obtain ⟨_, built, builds, rest⟩ := settles.resolved_bind
  obtain ⟨_, _, ⟨docker, sameImages, rfl⟩, answered⟩ :=
    answered_of_alone builds
  obtain ⟨_, _, ⟨startDocker, startImages, rfl⟩, started⟩ :=
    answered_of_alone rest
  cases started
  simp only [taskHost] at answered
  split at answered
  · cases answered
  · cases answered
  · cases answered
    refine ⟨rfl, rfl, ?_⟩
    unfold TaskState.HasImage
    rw [startImages]
    simp [Docker.build]

/-- Where an entry is found, `startTask` only activates the task. -/
theorem startTask_resolves
    {task : Task}
    (member : task ∈ before.tables.tasks.rows)
    (inactive : task.active = false)
    (found : before.scheduler.exists? task.id = true) :
    Settles (aloneHost config) (TaskService.startTask task.id) before (.ok ())
      { before with tables := before.tables.setActive task.id true } := by
  have looks :
      Settles (aloneHost config) (TaskDao.findById task.id) before
        (.ok (some task)) before :=
    Settles.perform_iff.mpr
      ⟨([], .done), congrArg (fun row => some (Except.ok row, before))
        (TaskTables.taskOf_of_mem member)⟩
  have asks :
      Settles (aloneHost config) (TaskOp.perform (.schedulerExists task.id))
        before (.ok true) before :=
    Settles.perform_iff.mpr
      ⟨([], .done), congrArg (fun isEntry => some (Except.ok isEntry, before))
        found⟩
  simp only [TaskService.startTask, TaskDao.findByIdThrowable, bind_assoc]
  refine Settles.bind_iff.mpr (.inl ⟨some task, before, looks, ?_⟩)
  simp only [pure_bind, inactive, Bool.false_eq_true, if_false]
  refine Settles.bind_iff.mpr (.inl ⟨(), before, ?_, ?_⟩)
  · exact Settles.bind_iff.mpr (.inl ⟨true, before, asks, .settled _ _⟩)
  · exact Settles.perform_iff.mpr ⟨([], .done), rfl⟩

/-- A task that starts again in spite of an entry has one that runs. -/
theorem running_of_startsAgain
    {task : Task}
    (startsAgain : before.StartsAgain config taskId)
    (member : task ∈ before.tables.tasks.rows)
    (sameId : task.id = taskId)
    (inactive : task.active = false)
    (found : before.scheduler.exists? taskId = true) :
    before.scheduler.isRunning taskId = true ∧ before.HasImage taskId := by
  subst sameId
  have resolves := @startTask_resolves config _ _ member inactive found
  obtain ⟨entry, _, present, running, _, _, hasImage⟩ :=
    (startsAgain _ resolves).1 rfl
  exact ⟨CronScheduler.isRunning_iff.mpr ⟨entry, present, running⟩, hasImage⟩

end Alone

/--
When no two calls have worked on one registration at the same time, and none
is in progress: `startTask` makes an inactive task run again if and only if
the scheduler has no entry for it, or one that runs already while the image is
there.
-/
theorem startTask_runsAgain_iff
    (config : TaskServerConfig)
    (turns : List (Turn TaskCall TaskInput))
    (final : Interleaving TaskState taskProtocol)
    (run :
      Run
        (Interleaving.Step (taskServices config) fun (view : TaskView) _ =>
          view.OneByOne)
        (.initial taskProtocol .initial) turns final)
    (settled : RegistrationsSettled final)
    (task : Task)
    (member : task ∈ final.shared.tables.tasks.rows)
    (inactive : task.active = false) :
    final.shared.StartsAgain config task.id ↔
      final.shared.scheduler.exists? task.id = false ∨
        (final.shared.scheduler.isRunning task.id = true ∧
          final.shared.HasImage task.id) := by
  constructor
  · intro startsAgain
    cases found : final.shared.scheduler.exists? task.id with
    | false => exact .inl rfl
    | true =>
        exact .inr
          (running_of_startsAgain startsAgain member rfl inactive found)
  · intro condition started settles
    rcases startTask_eq member inactive settles with
        ⟨found, docker, sameImages, rfl⟩ | ⟨found, docker, sameImages, rfl⟩
    · obtain ⟨running, hasImage⟩ := condition.resolve_left (by simp [found])
      refine ⟨fun _ => ?_, fun _ _ _ dispatched => ?_⟩
      · obtain ⟨entry, present, isRunning⟩ :=
          CronScheduler.isRunning_iff.mp running
        obtain ⟨taskConfig, stored, sameSchedule⟩ :=
          agreesOn_of_run run settled task.id _
            (CronScheduler.scheduleOf_of_entry present)
        refine ⟨entry, taskConfig, present, isRunning, stored.setActive,
          sameSchedule.symm, ?_⟩
        unfold TaskState.HasImage
        rw [sameImages]
        exact hasImage
      · exact absurd dispatched (by simp)
    · refine ⟨fun notDispatched => absurd notDispatched (by simp), ?_⟩
      intro _ begun after _ begins builds
      obtain ⟨sameTables, sameScheduler, _⟩ := beginTaskCall_keeps begins
      obtain ⟨startedScheduler, sameRows, hasImage⟩ := buildAndStart_eq builds
      refine ⟨⟨task.config.config.scheduleConfig, true⟩, task.config, ?_, rfl,
        ?_, rfl, hasImage⟩
      · rw [startedScheduler, sameScheduler]
        simp [CronScheduler.start, CronScheduler.update,
          CronScheduler.scheduleTask]
      · rw [sameRows, sameTables]
        exact TaskTables.HasConfig.setActive ⟨task, member, rfl, rfl⟩

/-- An update deletes the entry, and docker refuses to delete the image. -/
def failedUpdateTurns : List (Turn TaskCall TaskInput) :=
  [.invoke 3 (.updateTask 1 minutely.config), .resume 3 .done,
    .resume 3 .done, .resume 3 (.children []),
    .resume 3 (.refused "conflict")]

/-- A stopped task starts again once a failed update has deleted its entry. -/
theorem startTask_runsAgain_updated :
    ∃ final,
      Run
          (Interleaving.Step (taskServices lenientServer)
            fun (view : TaskView) _ => view.OneByOne)
          (.initial taskProtocol .initial)
          (createTurns ++ buildTurns ++ stopTurns ++ failedUpdateTurns) final ∧
        final.shared.tables.tasks.rows.map Task.active = [false] ∧
        final.shared.StartsAgain lenientServer 1 := by
  have run
      (final : Interleaving TaskState taskProtocol)
      (executed :
        (Interleaving.initial taskProtocol .initial).executeIf
            (taskServices lenientServer) (fun view _ => oneByOneBelow 4 view)
            (createTurns ++ buildTurns ++ stopTurns ++ failedUpdateTurns) =
          some final) :=
    run_of_oneByOneBelow 4 (by decide) executed
  have quiescent
      (final : Interleaving TaskState taskProtocol)
      (settled :
        ∀ pid < 4, ∀ process ∈ final.processes pid,
          process.residual.isSettled = true)
      (others : ∀ pid, final.processes (pid + 4) = none)
      (noBuilds : final.shared.builds = []) :=
    (Quiescent.of_range 4 settled others noBuilds).registrationsSettled
  refine ⟨_, run _ rfl, rfl, ?_⟩
  exact
    (startTask_runsAgain_iff _ _ _ (run _ rfl)
      (quiescent _ (by decide) (fun _ => rfl) rfl) _
      (List.mem_singleton.mpr rfl) rfl).mpr (.inl rfl)

/--
A task is created, built and stopped; then `startTask` resolves and leaves its
entry stopped.
-/
theorem startTask_leavesStopped :
    ∃ final,
      Run
          (Interleaving.Step (taskServices lenientServer)
            fun (view : TaskView) _ => view.OneByOne)
          (.initial taskProtocol .initial)
          (createTurns ++ buildTurns ++ stopTurns) final ∧
        Quiescent final ∧
        final.shared.tables.tasks.rows.map Task.active = [false] ∧
        ¬ final.shared.StartsAgain lenientServer 1 := by
  have run
      (final : Interleaving TaskState taskProtocol)
      (executed :
        (Interleaving.initial taskProtocol .initial).executeIf
            (taskServices lenientServer) (fun view _ => oneByOneBelow 3 view)
            (createTurns ++ buildTurns ++ stopTurns) =
          some final) :=
    run_of_oneByOneBelow 3 (by decide) executed
  refine ⟨_, run _ rfl, .of_range 3 (by decide) (fun _ => rfl) rfl, rfl, ?_⟩
  intro startsAgain
  have running :=
    (running_of_startsAgain startsAgain (List.mem_singleton.mpr rfl) rfl rfl
      rfl).1
  cases running

end Prescott
