import Prescott.TaskPhases
import Prescott.TaskIsolation

namespace Prescott

/-!
# The cron entry of an inactive task

The activity of a task is stored in its row, its cron entry in the scheduler,
and the entry is started by a build in the background that looks at neither.
An entry runs only while its task is active or a call is about to put that
right, provided that no build starts it and no deletion drops the row at the
wrong moment.
-/

/-- What is seen of interleaved task calls. -/
abbrev TaskView := taskProtocol.View TaskState

/-- The operation activates the task, or it stops or deletes its entry. -/
def TaskOp.excuses (taskId : Nat) : TaskOp → Bool
  | .setTaskActive id value => value && id == taskId
  | .schedulerStop id | .schedulerDelete id => id == taskId
  | _ => false

theorem TaskOp.excuses_eq_false
    {op : TaskOp}
    {taskId : Nat}
    (notActivated : op ≠ .setTaskActive taskId true)
    (notStopped : op ≠ .schedulerStop taskId)
    (notDeleted : op ≠ .schedulerDelete taskId) :
    op.excuses taskId = false := by
  cases op with
  | setTaskActive id value =>
      cases value with
      | true => exact beq_eq_false_iff_ne.mpr fun same =>
          notActivated (by rw [same])
      | false => rfl
  | schedulerStop id =>
      exact beq_eq_false_iff_ne.mpr fun same => notStopped (by rw [same])
  | schedulerDelete id =>
      exact beq_eq_false_iff_ne.mpr fun same => notDeleted (by rw [same])
  | _ => rfl

namespace TaskPhase

/-- The next operation stops or deletes the entry of the task. -/
def halts (taskId : Nat) : TaskPhase → Bool
  | .unscheduling id => id == taskId
  | .unregistering id _ => id == taskId
  | .disabling id => id == taskId
  | _ => false

variable {call : TaskCall}
variable {phase : TaskPhase}
variable {taskId id : Nat}

theorem starting_of_permits
    (permitted : phase.permits call (.schedulerStart id)) :
    phase = .starting id := by
  cases phase <;> simp [permits] at permitted
  case beginning => cases call <;> simp [TaskCall.firstOp] at permitted
  case starting => rw [permitted]

theorem deletingRow_of_permits
    (permitted : phase.permits call (.deleteTaskById id)) :
    phase = .deletingRow id := by
  cases phase <;> simp [permits] at permitted
  case beginning => cases call <;> simp [TaskCall.firstOp] at permitted
  case deletingRow => rw [permitted]

theorem storing_of_permits
    {taskConfig : TaskConfigDto}
    (permitted : phase.permits call (.updateTaskConfig id taskConfig)) :
    phase = .storing id taskConfig := by
  cases phase <;> simp [permits] at permitted
  case beginning => cases call <;> simp [TaskCall.firstOp] at permitted
  case storing => rw [permitted.1, permitted.2]

/-- A call that halts awaits nothing else. -/
theorem halting_of_permits
    {op : TaskOp}
    (halts : phase.halts taskId = true)
    (permitted : phase.permits call op) :
    op = .schedulerStop taskId ∨ op = .schedulerDelete taskId := by
  cases phase <;> simp [TaskPhase.halts] at halts
  case unscheduling => exact .inl (halts ▸ permitted)
  case unregistering => exact .inr (halts ▸ permitted)
  case disabling => exact .inl (halts ▸ permitted)

/-- A task is deactivated by `stopTask` or at the end of its last run. -/
theorem deactivating_of_permits
    (permitted : phase.permits call (.setTaskActive id false)) :
    phase = .deactivating id ∨ ∃ runHandle, call = .executor runHandle := by
  cases phase <;> simp [permits] at permitted
  case beginning => cases call <;> simp [TaskCall.firstOp] at permitted
  case deactivating => exact .inl (by rw [permitted])
  case autoStopping => exact .inr (permitted.imp fun _ same => same.1)

end TaskPhase

namespace TaskView

/-- The next operation of some call stops or deletes the entry. -/
def Halting (view : TaskView) (taskId : Nat) : Prop :=
  ∃ pid phase, view.InPhase pid phase ∧ phase.halts taskId = true

/-- The next operation of some call activates the task, which is there. -/
def Activating (view : TaskView) (taskId : Nat) : Prop :=
  view.shared.tables.Has taskId ∧
    ∃ pid, view.InPhase pid (.activating taskId)

/-- The entry of the task may run. -/
def Entitled (view : TaskView) (taskId : Nat) : Prop :=
  view.shared.tables.IsActive taskId ∨
    view.Activating taskId ∨
    view.Halting taskId

/--
The condition on a turn: no executor takes part; a build starts an entry only
where it may run; and a row is deleted only while its entry does not run, or
is about to be stopped.
-/
def StartsEntitled (view : TaskView) : Turn TaskCall TaskInput → Prop
  | .invoke _ call => ∀ runHandle, call ≠ .executor runHandle
  | .resume pid _ =>
      ∀ taskId,
        (view.InPhase pid (.starting taskId) →
          view.shared.scheduler.exists? taskId = true →
          view.Entitled taskId) ∧
        (view.InPhase pid (.deletingRow taskId) →
          view.shared.scheduler.isRunning taskId = true →
          view.Halting taskId)

/-- Entries run only where they may. -/
structure Governed (view : TaskView) : Prop where
  noExecutor :
    ∀ pid runHandle phase,
      view.progress pid ≠ some ⟨.executor runHandle, phase⟩
  entitled :
    ∀ taskId,
      view.shared.scheduler.isRunning taskId = true → view.Entitled taskId

variable {view : TaskView}
variable {pid taskId : Nat}
variable {progress : taskProtocol.Progress}
variable {shared : TaskState}

/-- A call that halts goes on halting while another one moves. -/
theorem Halting.place
    (halting : view.Halting taskId)
    (notMoved : ∀ phase, view.InPhase pid phase → phase.halts taskId = false) :
    TaskView.Halting (view.place pid progress shared) taskId := by
  obtain ⟨other, phase, inPhase, halts⟩ := halting
  refine ⟨other, phase, inPhase.place ?_, halts⟩
  rintro rfl
  rw [notMoved phase inPhase] at halts
  cases halts

/-- A move that takes no excuse away keeps an entry entitled. -/
theorem Entitled.place
    (entitled : view.Entitled taskId)
    (active :
      view.shared.tables.IsActive taskId → shared.tables.IsActive taskId)
    (has : view.shared.tables.Has taskId → shared.tables.Has taskId)
    (notActivating : ¬ view.InPhase pid (.activating taskId))
    (notHalting :
      ∀ phase, view.InPhase pid phase → phase.halts taskId = false) :
    TaskView.Entitled (view.place pid progress shared) taskId := by
  rcases entitled with isActive | ⟨present, other, activates⟩ | halting
  · exact .inl (active isActive)
  · refine .inr (.inl ⟨has present, other, activates.place ?_⟩)
    rintro rfl
    exact notActivating activates
  · exact .inr (.inr (halting.place notHalting))

/-- An operation that takes no excuse away keeps an entry entitled. -/
theorem Entitled.answer
    {call : TaskCall}
    {phase : TaskPhase}
    {op : TaskOp}
    (entitled : view.Entitled taskId)
    (present : view.progress pid = some ⟨call, phase⟩)
    (permitted : phase.permits call op)
    (noExcuse : op.excuses taskId = false)
    (active :
      view.shared.tables.IsActive taskId → shared.tables.IsActive taskId)
    (has : view.shared.tables.Has taskId → shared.tables.Has taskId) :
    TaskView.Entitled (view.place pid progress shared) taskId := by
  refine entitled.place active has ?_ ?_
  · intro inPhase
    have activates := inPhase.eq present
    subst activates
    cases permitted
    simp [TaskOp.excuses] at noExcuse
  · intro other inPhase
    have same := inPhase.eq present
    subst same
    by_contra halts
    rw [Bool.not_eq_false] at halts
    rcases TaskPhase.halting_of_permits halts permitted with rfl | rfl
    · simp [TaskOp.excuses] at noExcuse
    · simp [TaskOp.excuses] at noExcuse

/-- An entry that runs after a turn under the condition was entitled before. -/
theorem Governed.entitledBefore
    {config : TaskServerConfig}
    {call : TaskCall}
    {phase : TaskPhase}
    {op : TaskOp}
    {input : TaskInput}
    {result : Except AppError op.Result}
    (governed : view.Governed)
    (startsEntitled : view.StartsEntitled (.resume pid input))
    (present : view.progress pid = some ⟨call, phase⟩)
    (permitted : phase.permits call op)
    (answered :
      taskHost config op input view.shared = some (result, shared))
    (running : shared.scheduler.isRunning taskId = true) :
    view.Entitled taskId := by
  obtain ⟨_, _, ran | ⟨rfl, there⟩⟩ :=
    TaskState.ranBefore_of_answered answered running
  · exact governed.entitled taskId ran
  · have starts := TaskPhase.starting_of_permits permitted
    subst starts
    exact (startsEntitled taskId).1 ⟨call, present⟩ there

/-- A task that has just been activated is active, or it is not there. -/
theorem Entitled.activated
    {call : TaskCall}
    {phase : TaskPhase}
    (entitled : view.Entitled taskId)
    (present : view.progress pid = some ⟨call, phase⟩)
    (permitted : phase.permits call (.setTaskActive taskId true))
    (sameTables :
      shared.tables = view.shared.tables.setActive taskId true) :
    TaskView.Entitled (view.place pid progress shared) taskId := by
  by_cases has : view.shared.tables.Has taskId
  · refine .inl ?_
    change shared.tables.IsActive taskId
    rw [sameTables]
    exact .of_activated has
  · rcases entitled with active | ⟨there, _⟩ | halting
    · exact absurd active.has has
    · exact absurd there has
    · refine .inr (.inr (halting.place fun other inPhase => ?_))
      have samePhase := inPhase.eq present
      subst samePhase
      by_contra halts
      rw [Bool.not_eq_false] at halts
      rcases TaskPhase.halting_of_permits halts permitted with
          stops | deletes
      · cases stops
      · cases deletes

/-- The entry of a task stays entitled whatever a call awaits. -/
theorem Governed.answer
    {config : TaskServerConfig}
    {call : TaskCall}
    {phase : TaskPhase}
    {op : TaskOp}
    {input : TaskInput}
    {result : Except AppError op.Result}
    (governed : view.Governed)
    (startsEntitled : view.StartsEntitled (.resume pid input))
    (present : view.progress pid = some ⟨call, phase⟩)
    (permitted : phase.permits call op)
    (answered :
      taskHost config op input view.shared = some (result, shared))
    (running : shared.scheduler.isRunning taskId = true) :
    TaskView.Entitled
      (view.place pid ⟨call, phase.advance call op result⟩ shared)
      taskId := by
  have entitled :=
    governed.entitledBefore startsEntitled present permitted answered running
  by_cases deletes : op = .deleteTaskById taskId
  · -- The row is gone, so some other call has to be about to halt.
    subst deletes
    have deletingRow := TaskPhase.deletingRow_of_permits permitted
    subst deletingRow
    rw [(taskHost_keeps answered).scheduler rfl] at running
    have halting := (startsEntitled taskId).2 ⟨call, present⟩ running
    refine .inr (.inr (halting.place fun phase inPhase => ?_))
    rw [inPhase.eq present]
    rfl
  by_cases deactivates : op = .setTaskActive taskId false
  · -- `stopTask` stops the entry with its next operation.
    subst deactivates
    cases answered
    rcases TaskPhase.deactivating_of_permits permitted with
        rfl | ⟨runHandle, rfl⟩
    · exact .inr (.inr ⟨pid, _, Protocol.View.inPhase_place,
        beq_self_eq_true taskId⟩)
    · exact absurd present (governed.noExecutor pid runHandle phase)
  by_cases activates : op = .setTaskActive taskId true
  · subst activates
    cases answered
    exact entitled.activated present permitted rfl
  · obtain ⟨notStopped, notDeleted, _⟩ :=
      TaskState.ranBefore_of_answered answered running
    exact entitled.answer present permitted
      (TaskOp.excuses_eq_false activates notStopped notDeleted)
      (TaskState.staysActive_of_answered answered deactivates deletes)
      (TaskState.stays_of_answered answered deletes)

/-- Every turn under the condition keeps the entries governed. -/
theorem Governed.step
    {config : TaskServerConfig}
    {before after : TaskView}
    {turn : Turn TaskCall TaskInput}
    (governed : before.Governed)
    (startsEntitled : before.StartsEntitled turn)
    (moves :
      Protocol.Moves (taskServices config) taskProtocol before turn after) :
    after.Governed := by
  cases moves with
  | @invoke pid call shared fresh begun =>
      obtain ⟨sameTables, sameScheduler, _⟩ := beginTaskCall_keeps begun
      have absent
          (phase : TaskPhase) :
          ¬ before.InPhase pid phase := by
        rintro ⟨_, present⟩
        rw [fresh] at present
        cases present
      constructor
      · intro other runHandle phase present
        rcases Protocol.View.place_cases present with
            ⟨_, shape⟩ | ⟨_, earlier⟩
        · cases shape
          exact startsEntitled runHandle rfl
        · exact governed.noExecutor other runHandle phase earlier
      · intro taskId running
        change shared.scheduler.isRunning taskId = true at running
        rw [sameScheduler] at running
        refine (governed.entitled taskId running).place ?_ ?_ (absent _) ?_
        · rw [sameTables]
          exact fun active => active
        · rw [sameTables]
          exact fun has => has
        · exact fun phase inPhase => (absent phase inPhase).elim
  | @resume pid call phase op input answer shared present permitted answered =>
      constructor
      · intro other runHandle otherPhase found
        rcases Protocol.View.place_cases found with
            ⟨_, shape⟩ | ⟨_, earlier⟩
        · cases shape
          exact governed.noExecutor pid runHandle phase present
        · exact governed.noExecutor other runHandle otherPhase earlier
      · exact fun taskId running =>
          governed.answer startsEntitled present permitted answered running

theorem Governed.initially :
    TaskView.Governed (.initial taskProtocol .initial) := by
  constructor
  · intro pid runHandle phase present
    cases present
  · intro taskId running
    cases running

end TaskView

/-- No call is in progress, and no dispatched build waits to begin. -/
def Quiescent (config : Interleaving TaskState taskProtocol) : Prop :=
  (∀ pid process,
    config.processes pid = some process →
    process.residual.isSettled = true) ∧
    config.shared.builds = []

/-- A program that has settled is in a settled phase. -/
theorem Interleaving.Conforming.settled
    {config : Interleaving TaskState taskProtocol}
    (conforming : config.Conforming)
    {pid : Nat}
    {process : Process taskProtocol}
    (present : config.processes pid = some process)
    (isSettled : process.residual.isSettled = true) :
    ∃ resolved, process.phase = .settled resolved := by
  have conforms := conforming pid process present
  unfold Async.isSettled at isSettled
  split at isSettled
  · rename_i outcome residual
    rw [residual] at conforms
    exact ⟨_, conforms⟩
  · cases isSettled

/-- A call that has settled is in no other phase. -/
theorem Quiescent.settled
    {config : Interleaving TaskState taskProtocol}
    (quiescent : Quiescent config)
    (conforming : config.Conforming)
    {pid : Nat}
    {phase : TaskPhase}
    (inPhase : config.view.InPhase pid phase) :
    ∃ resolved, phase = .settled resolved := by
  obtain ⟨call, found⟩ := inPhase
  obtain ⟨process, present, shape⟩ := Option.map_eq_some_iff.mp found
  cases shape
  exact conforming.settled present (quiescent.1 pid process present)

/--
In every interleaving in which no build starts the entry of a task that may
not run, and no deletion leaves a running entry behind: when nothing is in
progress, the entry of an absent or inactive task does not run.
-/
theorem cron_stopped_of_inactive
    (config : TaskServerConfig)
    (turns : List (Turn TaskCall TaskInput))
    (final : Interleaving TaskState taskProtocol)
    (run :
      Run
        (Interleaving.Step (taskServices config) TaskView.StartsEntitled)
        (.initial taskProtocol .initial) turns final)
    (quiescent : Quiescent final)
    (taskId : Nat)
    (inactive :
      ∀ task ∈ final.shared.tables.tasks.rows,
        task.id = taskId → task.active = false) :
    final.shared.scheduler.isRunning taskId = false := by
  obtain ⟨moves, conforming⟩ :=
    Interleaving.moves_of_run TaskPhase.conforms_taskBody run
  have governed :=
    moves.invariant TaskView.Governed
      (fun _ _ _ governed taken => governed.step taken.1 taken.2)
      TaskView.Governed.initially
  by_contra running
  rw [Bool.not_eq_false] at running
  rcases governed.entitled taskId running with
      ⟨task, member, same, isActive⟩ | ⟨_, pid, activates⟩ |
        ⟨pid, phase, inPhase, halts⟩
  · rw [inactive task member same] at isActive
    cases isActive
  · obtain ⟨_, shape⟩ := quiescent.settled conforming activates
    cases shape
  · obtain ⟨_, rfl⟩ := quiescent.settled conforming inPhase
    cases halts

/-- A server whose queue runs five executors and takes every expression. -/
def lenientServer : TaskServerConfig where
  maxConcurrency := 5
  isValidCron := fun _ => true
  regExp := fun _ => none

/-- A task is created, and its build is dispatched. -/
def createTurns : List (Turn TaskCall TaskInput) :=
  [.invoke 0 (.createTask 1 1 minutely), .resume 0 .done, .resume 0 .done,
    .resume 0 .done, .resume 0 .done, .resume 0 .done,
    .invoke 1 (.build 1 minutely)]

/-- The build succeeds and starts the entry. -/
def buildTurns : List (Turn TaskCall TaskInput) :=
  [.resume 1 .done, .resume 1 .done]

/-- The task is stopped. -/
def stopTurns : List (Turn TaskCall TaskInput) :=
  [.invoke 2 (.stopTask 1), .resume 2 .done, .resume 2 .done,
    .resume 2 .done, .resume 2 (.children []), .resume 2 .done]

/-- A check for turns that start entries of active tasks and delete no row. -/
def startsActive (view : TaskView) : Turn TaskCall TaskInput → Bool
  | .invoke _ (.executor _) => false
  | .invoke _ _ => true
  | .resume pid _ =>
      match view.progress pid with
      | some ⟨_, .starting taskId⟩ =>
          view.shared.tables.tasks.rows.any fun task =>
            task.id == taskId && task.active
      | some ⟨_, .deletingRow _⟩ => false
      | _ => true

theorem startsEntitled_of_startsActive
    (view : TaskView)
    (turn : Turn TaskCall TaskInput)
    (passed : startsActive view turn = true) :
    view.StartsEntitled turn := by
  cases turn with
  | invoke pid call =>
      rintro runHandle rfl
      cases passed
  | resume pid input =>
      intro taskId
      constructor
      · rintro ⟨call, present⟩ _
        simp only [startsActive, present] at passed
        obtain ⟨task, member, found⟩ := List.any_eq_true.mp passed
        rw [Bool.and_eq_true, beq_iff_eq] at found
        exact .inl ⟨task, member, found⟩
      · rintro ⟨call, present⟩ _
        simp only [startsActive, present] at passed
        cases passed

/-- When each of the first calls has settled, and no other one has begun. -/
theorem Quiescent.of_range
    {config : Interleaving TaskState taskProtocol}
    (count : Nat)
    (settled :
      ∀ pid < count, ∀ process ∈ config.processes pid,
        process.residual.isSettled = true)
    (others : ∀ pid, config.processes (pid + count) = none)
    (noBuilds : config.shared.builds = []) :
    Quiescent config := by
  refine ⟨fun pid process present => ?_, noBuilds⟩
  rcases Nat.lt_or_ge pid count with below | above
  · exact settled pid below process present
  · rw [← Nat.sub_add_cancel above, others] at present
    cases present

/-- A task that is stopped after its build has an entry that does not run. -/
theorem cron_stopped_of_inactive_stop :
    ∃ final,
      Run
          (Interleaving.Step (taskServices lenientServer)
            TaskView.StartsEntitled)
          (.initial taskProtocol .initial)
          (createTurns ++ buildTurns ++ stopTurns) final ∧
        final.shared.scheduler.exists? 1 = true ∧
        final.shared.scheduler.isRunning 1 = false := by
  have run
      (final : Interleaving TaskState taskProtocol)
      (executed :
        (Interleaving.initial taskProtocol .initial).executeIf
            (taskServices lenientServer) startsActive
            (createTurns ++ buildTurns ++ stopTurns) =
          some final) :=
    Interleaving.run_of_executeIf startsEntitled_of_startsActive executed
  refine ⟨_, run _ rfl, rfl,
    cron_stopped_of_inactive _ _ _ (run _ rfl)
      (.of_range 3 (by decide) (fun _ => rfl) rfl) 1 ?_⟩
  intro task member _
  cases List.mem_singleton.mp member
  rfl

/-- The task is stopped first; then its build succeeds and starts the entry. -/
theorem cron_runs_after_stop :
    ∃ final,
      Run (Interleaving.Step (taskServices lenientServer) fun _ _ => True)
          (.initial taskProtocol .initial)
          (createTurns ++ stopTurns ++ buildTurns) final ∧
        Quiescent final ∧
        final.shared.tables.tasks.rows.map Task.active = [false] ∧
        final.shared.scheduler.isRunning 1 = true := by
  refine ⟨_, Interleaving.run_of_foldlM rfl, .of_range 3 (by decide) ?_ rfl,
    rfl, rfl⟩
  exact fun _ => rfl

end Prescott
