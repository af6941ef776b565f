import Prescott.RunStatuses

namespace Prescott

/-!
# After a task has been stopped

The last operation of `stopTask` marks the pending runs as stopped.  Where no
executor is about to launch at that moment, none comes to launch later, until
the task is started again.
-/

/-- A `stopTask` of the task has resolved. -/
def Interleaving.HasStopped
    (config : Interleaving TaskState taskProtocol)
    (pid taskId : Nat) :
    Prop :=
  ∃ process,
    config.processes pid = some process ∧
      process.call = .stopTask taskId ∧
      process.residual.resolved.isSome = true

/-- A `stopTask` that has resolved is told by its phase. -/
theorem Interleaving.hasStopped_iff
    {config : Interleaving TaskState taskProtocol}
    (conforming : config.Conforming)
    {pid taskId : Nat} :
    config.HasStopped pid taskId ↔
      config.view.progress pid =
        some ⟨.stopTask taskId, .settled true⟩ := by
  constructor
  · rintro ⟨⟨call, phase, residual⟩, present, rfl, resolved⟩
    have conforms := conforming pid _ present
    cases residual with
    | settled outcome =>
        cases outcome with
        | ok value =>
            cases conforms
            simp [view, present]
            rfl
        | error reason => cases resolved
    | await op resume => cases resolved
  · intro found
    obtain ⟨⟨call, phase, residual⟩, present, shape⟩ :=
      Option.map_eq_some_iff.mp found
    cases shape
    have conforms := conforming pid _ present
    refine ⟨_, present, rfl, ?_⟩
    cases residual with
    | settled outcome =>
        cases outcome with
        | ok value => rfl
        | error reason => cases conforms
    | await op resume => exact conforms.1.elim

namespace TaskPhase

/-- The phases of a `stopTask`; the task is known once it has been found. -/
def OfStop (tables : TaskTables) (taskId : Nat) : TaskPhase → Prop
  | .beginning | .settled _ => True
  | .deactivating id | .unscheduling id | .listing id | .stopping id _ =>
      id = taskId ∧ taskId < tables.tasks.nextId
  | _ => False

variable {config : TaskServerConfig}
variable {phase : TaskPhase}
variable {op : TaskOp}
variable {input : TaskInput}
variable {before after : TaskState}
variable {answer : Except AppError op.Result}
variable {taskId : Nat}

theorem nextId_le_of_answered
    (answered : taskHost config op input before = some (answer, after)) :
    before.tables.tasks.nextId ≤ after.tables.tasks.nextId := by
  cases op with
  | insertTask data =>
      rcases TaskState.attempt_eq answered with
          ⟨_, _, inserted, _, rfl⟩ | ⟨_, _, _, rfl⟩
      · rw [(TaskTables.nextId_insertTask inserted).2]
        exact Nat.le_succ _
      · exact Nat.le_refl _
  | updateTaskConfig | deleteTaskById | setTaskActive =>
      cases answered
      exact Nat.le_refl _
  | _ => rw [(taskHost_keeps answered).tasks rfl]

theorem OfStop.mono
    {tables later : TaskTables}
    (ofStop : phase.OfStop tables taskId)
    (nextId_le : tables.tasks.nextId ≤ later.tasks.nextId) :
    phase.OfStop later taskId := by
  cases phase with
  | deactivating | unscheduling | listing | stopping =>
      exact ⟨ofStop.1, Nat.lt_of_lt_of_le ofStop.2 nextId_le⟩
  | _ => exact ofStop

/-- A `stopTask` goes through its phases, and resolves in the last one only. -/
theorem OfStop.advance
    (ofStop : phase.OfStop before.tables taskId)
    (permitted : phase.permits (.stopTask taskId) op)
    (answered : taskHost config op input before = some (answer, after)) :
    (phase.advance (.stopTask taskId) op answer).OfStop after.tables taskId ∧
      (phase.advance (.stopTask taskId) op answer = .settled true →
        phase = .stopping taskId 0) := by
  have later := ofStop.mono (nextId_le_of_answered answered)
  cases phase with
  | beginning =>
      cases permitted
      cases answered
      cases found : before.tables.taskOf taskId with
      | none => exact ⟨trivial, nofun⟩
      | some task =>
          change
            TaskPhase.OfStop before.tables taskId
                (if task.active then .deactivating taskId else .settled false) ∧
              ((if task.active then TaskPhase.deactivating taskId
                else .settled false) = .settled true → _)
          obtain ⟨member, sameId⟩ := Table.mem_of_first found
          split
          · refine ⟨⟨rfl, ?_⟩, nofun⟩
            rw [← beq_iff_eq.mp sameId]
            exact before.tables.tasks.keysBelow task member
          · exact ⟨trivial, nofun⟩
  | deactivating id | unscheduling id =>
      cases answer with
      | ok value => exact ⟨later, nofun⟩
      | error reason => exact ⟨trivial, nofun⟩
  | listing id =>
      cases permitted
      cases answer with
      | ok value => exact ⟨later, nofun⟩
      | error reason => exact ⟨trivial, nofun⟩
  | stopping id childrenLeft =>
      cases childrenLeft with
      | zero =>
          rw [later.1]
          refine ⟨?_, fun _ => rfl⟩
          cases answer with
          | ok value => trivial
          | error reason => trivial
      | succ childrenLeft => exact ⟨later, nofun⟩
  | settled resolved => exact permitted.elim
  | _ => exact ofStop.elim

end TaskPhase

namespace TaskView

/-- The turn in which `startTask` activates the task. -/
def Restarts (view : TaskView) (taskId : Nat) :
    Turn TaskCall TaskInput → Prop
  | .invoke _ _ => False
  | .resume pid _ => view.InPhase pid (.activating taskId)

/-- The task is known and inactive, and no executor of it is about to launch. -/
structure Halted (view : TaskView) (taskId : Nat) : Prop where
  known : taskId < view.shared.tables.tasks.nextId
  inactive : ¬ view.shared.tables.IsActive taskId
  noLaunch :
    ∀ pid runHandle taskConfig,
      view.progress pid =
        some ⟨.executor runHandle, .launching taskConfig⟩ →
      runHandle.taskId ≠ taskId

/-- Every `stopTask` is in one of its phases. -/
def StopsKnown (view : TaskView) : Prop :=
  ∀ pid taskId phase,
    view.progress pid = some ⟨.stopTask taskId, phase⟩ →
    phase.OfStop view.shared.tables taskId

variable {config : TaskServerConfig}
variable {before after : TaskView}
variable {turn : Turn TaskCall TaskInput}
variable {taskId : Nat}

theorem StopsKnown.step
    (stopsKnown : before.StopsKnown)
    (moves :
      Protocol.Moves (taskServices config) taskProtocol before turn after) :
    after.StopsKnown := by
  intro other otherId phase found
  cases moves with
  | invoke _ begun =>
      have sameTables := (beginTaskCall_keeps begun).1
      rcases Protocol.View.place_cases found with ⟨_, shape⟩ | ⟨_, earlier⟩
      · cases shape
        trivial
      · exact (stopsKnown other otherId phase earlier).mono
          (Nat.le_of_eq (congrArg (·.tasks.nextId) sameTables.symm))
  | resume present permitted answered =>
      rcases Protocol.View.place_cases found with ⟨_, shape⟩ | ⟨_, earlier⟩
      · cases shape
        exact ((stopsKnown _ _ _ present).advance permitted answered).1
      · exact (stopsKnown other otherId phase earlier).mono
          (TaskPhase.nextId_le_of_answered answered)

theorem StopsKnown.initially :
    TaskView.StopsKnown (.initial taskProtocol .initial) := by
  intro pid taskId phase present
  cases present

/-- The turn in which a `stopTask` resolves leaves its task halted. -/
theorem Halted.of_resolved
    {pid : Nat}
    (stopsKnown : before.StopsKnown)
    (inTime : before.StopsInTime turn)
    (moves :
      Protocol.Moves (taskServices config) taskProtocol before turn after)
    (unresolved :
      before.progress pid ≠ some ⟨.stopTask taskId, .settled true⟩)
    (resolved :
      after.progress pid = some ⟨.stopTask taskId, .settled true⟩) :
    after.Halted taskId := by
  cases moves with
  | invoke _ begun =>
      rcases Protocol.View.place_cases resolved with ⟨_, shape⟩ | ⟨_, earlier⟩
      · cases shape
      · exact (unresolved earlier).elim
  | @resume mover call phase op input answer shared present permitted answered =>
      rcases Protocol.View.place_cases resolved with ⟨_, shape⟩ | ⟨_, earlier⟩
      · obtain ⟨rfl, ends⟩ := Protocol.Progress.mk.inj shape
        have ofStop := stopsKnown mover taskId phase present
        obtain rfl := (ofStop.advance permitted answered).2 ends.symm
        obtain ⟨inactive, noLaunch⟩ := (inTime taskId).1 ⟨_, present⟩
        rcases permitted with ⟨left, _⟩ | ⟨_, rfl⟩
        · exact absurd left (Nat.lt_irrefl 0)
        · cases answered
          refine ⟨ofStop.2, inactive, ?_⟩
          intro other runHandle taskConfig found
          rcases Protocol.View.place_cases found with ⟨_, other⟩ | ⟨_, earlier⟩
          · cases other
          · exact noLaunch other runHandle ⟨_, _, earlier, rfl⟩
      · exact (unresolved earlier).elim

/-- A halted task stays halted until it is started again. -/
theorem Halted.step
    (halted : before.Halted taskId)
    (moves :
      Protocol.Moves (taskServices config) taskProtocol before turn after)
    (notRestarted : ¬ before.Restarts taskId turn) :
    after.Halted taskId := by
  cases moves with
  | @invoke mover call shared _ begun =>
      have sameTables := (beginTaskCall_keeps begun).1
      constructor
      · change taskId < shared.tables.tasks.nextId
        rw [sameTables]
        exact halted.known
      · change ¬ shared.tables.IsActive taskId
        rw [sameTables]
        exact halted.inactive
      · intro other runHandle taskConfig found
        rcases Protocol.View.place_cases found with ⟨_, shape⟩ | ⟨_, earlier⟩
        · cases call <;> cases shape
        · exact halted.noLaunch other runHandle taskConfig earlier
  | @resume mover call phase op input answer shared present permitted answered =>
      constructor
      · exact Nat.lt_of_lt_of_le halted.known
          (TaskPhase.nextId_le_of_answered answered)
      · intro active
        rcases isActive_of_answered answered active with
            wasActive | rfl | isNew
        · exact halted.inactive wasActive
        · obtain rfl := TaskPhase.activating_of_permits permitted
          exact notRestarted ⟨call, present⟩
        · exact Nat.ne_of_lt halted.known isNew
      · intro other runHandle taskConfig found
        rcases Protocol.View.place_cases found with ⟨_, shape⟩ | ⟨_, earlier⟩
        · obtain ⟨rfl, launches⟩ := Protocol.Progress.mk.inj shape
          have advances :
              TaskPhase.Advances (.executor runHandle) phase op answer
                (.launching taskConfig) :=
            launches ▸ TaskPhase.advances_advance answer permitted
          cases advances with
          | failed fails =>
              cases fails
              exact halted.noLaunch mover runHandle taskConfig present
          | @runs _ task isCall active =>
              cases isCall
              have answered :
                  taskHost config (.findTaskById runHandle.taskId) input
                      before.shared =
                    some (.ok (some task), shared) :=
                answered
              rintro rfl
              exact halted.inactive (isActive_of_found answered active).1
        · exact halted.noLaunch other runHandle taskConfig earlier

end TaskView

/--
In every interleaving in which pending runs are marked as stopped only while
the task is inactive and no executor of it is launching, and in which a task
is started again only while none of its stopped runs waits: a status only
moves on, and once a `stopTask` has resolved no environment of the task is
about to be launched until the task is started again.
-/
theorem stopTask_final
    (config : TaskServerConfig)
    (turns : List (Turn TaskCall TaskInput))
    (turn : Turn TaskCall TaskInput)
    (before after : Interleaving TaskState taskProtocol)
    (run :
      Run (Interleaving.Step (taskServices config) TaskView.StopsInTime)
        (.initial taskProtocol .initial) turns before)
    (taken :
      Interleaving.Step (taskServices config) TaskView.StopsInTime
        before turn after) :
    TaskTables.StatusesMove before.shared.tables after.shared.tables ∧
      ∀ pid taskId,
        ¬ before.HasStopped pid taskId →
        after.HasStopped pid taskId →
        ∀ trailing final,
          Run
            (Interleaving.Step (taskServices config)
              fun (view : TaskView) turn =>
                view.StopsInTime turn ∧ ¬ view.Restarts taskId turn)
            after trailing final →
          ∀ other limitations,
            ¬ final.Awaits other
              (.runEnv (buildTaskIdentifier taskId) limitations) := by
  have programs := TaskPhase.conforms_taskBody
  obtain ⟨moves, conforming⟩ := Interleaving.moves_of_run programs run
  obtain ⟨move, conformingAfter⟩ :=
    Interleaving.Step.moves programs conforming taken
  have runsCarried :=
    moves.invariant TaskView.RunsCarried
      (fun _ _ _ carried taken => carried.step taken.1 taken.2)
      TaskView.RunsCarried.initially
  have stopsKnown :=
    moves.invariant TaskView.StopsKnown
      (fun _ _ _ known taken => known.step taken.2)
      TaskView.StopsKnown.initially
  refine ⟨runsCarried.statusesMove move, ?_⟩
  intro pid taskId unresolved resolved trailing final later other limitations
    awaits
  rw [Interleaving.hasStopped_iff conforming] at unresolved
  rw [Interleaving.hasStopped_iff conformingAfter] at resolved
  obtain ⟨laterMoves, conformingFinal⟩ :=
    conformingAfter.moves_of_run programs later
  have halted :=
    laterMoves.invariant (TaskView.Halted · taskId)
      (fun _ _ _ halted taken => halted.step taken.2 taken.1.2)
      (.of_resolved stopsKnown taken.1 move unresolved resolved)
  obtain ⟨call, phase, found, permitted⟩ := conformingFinal.permits awaits
  obtain ⟨runHandle, taskConfig, rfl, rfl, sameImage⟩ :=
    TaskPhase.launching_of_permits permitted
  exact halted.noLaunch other runHandle taskConfig found
    (eq_of_buildTaskIdentifier_eq sameImage).symm

/-- A check for turns that neither mark runs as stopped nor activate a task. -/
def neitherStopsNorStarts (view : TaskView) : Turn TaskCall TaskInput → Bool
  | .invoke _ _ => true
  | .resume pid _ =>
      match view.progress pid with
      | some ⟨_, .stopping _ 0⟩ | some ⟨_, .activating _⟩ => false
      | _ => true

theorem stopsInTime_of_neither
    (view : TaskView)
    (turn : Turn TaskCall TaskInput)
    (passed : neitherStopsNorStarts view turn = true) :
    view.StopsInTime turn ∧ ∀ taskId, ¬ view.Restarts taskId turn := by
  cases turn with
  | invoke pid call => exact ⟨trivial, fun _ => not_false⟩
  | resume pid input =>
      have notActivating (taskId : Nat) :
          ¬ view.InPhase pid (.activating taskId) := by
        rintro ⟨call, present⟩
        simp only [neitherStopsNorStarts, present] at passed
        cases passed
      refine ⟨fun taskId => ⟨?_, fun inPhase => ?_⟩, notActivating⟩
      · rintro ⟨call, present⟩
        simp only [neitherStopsNorStarts, present] at passed
        cases passed
      · exact (notActivating taskId inPhase).elim

/-- No run is about to be launched when none of the first calls launches one. -/
theorem TaskView.not_launching_of_range
    {view : TaskView}
    (count : Nat)
    (noneLaunches :
      ∀ pid < count,
        (view.progress pid).all
            (fun progress =>
              (progress.call.carried progress.phase).all fun carried =>
                carried.2 != .launching) =
          true)
    (others : ∀ pid, view.progress (pid + count) = none)
    (pid : Nat)
    (runHandle : TaskRunHandle) :
    ¬ view.Carries pid runHandle .launching := by
  rintro ⟨call, phase, present, carried⟩
  rcases Nat.lt_or_ge pid count with below | above
  · have notLaunching := noneLaunches pid below
    rw [present] at notLaunching
    simp [carried] at notLaunching
  · rw [← Nat.sub_add_cancel above, others] at present
    cases present

/-- A callback registers and enqueues the first run of the task. -/
def registerTurns : List (Turn TaskCall TaskInput) :=
  .invoke 3 (.callback 1) :: List.replicate 5 (.resume 3 .done)

/-- The queue begins the executor of that run, which looks at the task. -/
def lookTurns : List (Turn TaskCall TaskInput) :=
  [.invoke 4 (.executor { taskId := 1, runId := 1, runRank := .infinity }),
    .resume 4 .done]

/-- The executor has found the task inactive and leaves the queue. -/
def leaveTurns : List (Turn TaskCall TaskInput) :=
  lookTurns ++ [.resume 4 .done]

/-- A task is stopped while its run is queued, and the executor then leaves. -/
theorem stopTask_final_queued :
    ∃ before after final,
      Run
          (Interleaving.Step (taskServices lenientServer)
            TaskView.StopsInTime)
          (.initial taskProtocol .initial)
          (createTurns ++ buildTurns ++ registerTurns ++ stopTurns.dropLast)
          before ∧
        Interleaving.Step (taskServices lenientServer) TaskView.StopsInTime
          before (.resume 2 .done) after ∧
        after.HasStopped 2 1 ∧
        TaskTables.StatusesMove before.shared.tables after.shared.tables ∧
        Run
          (Interleaving.Step (taskServices lenientServer)
            fun (view : TaskView) turn =>
              view.StopsInTime turn ∧ ¬ view.Restarts 1 turn)
          after leaveTurns final ∧
        ∀ other limitations,
          ¬ final.Awaits other
            (.runEnv (buildTaskIdentifier 1) limitations) := by
  have assembled
      (before after final : Interleaving TaskState taskProtocol)
      (leads :
        (Interleaving.initial taskProtocol .initial).executeIf
            (taskServices lenientServer) neitherStopsNorStarts
            (createTurns ++ buildTurns ++ registerTurns ++
              stopTurns.dropLast) =
          some before)
      (stepped :
        before.step? (taskServices lenientServer) (.resume 2 .done) =
          some after)
      (trails :
        after.executeIf (taskServices lenientServer) neitherStopsNorStarts
            leaveTurns =
          some final)
      (present :
        before.view.progress 2 = some ⟨.stopTask 1, .stopping 1 0⟩)
      (inactive :
        ∀ task ∈ before.shared.tables.tasks.rows, task.active = false)
      (noneLaunches :
        ∀ other runHandle,
          ¬ TaskView.Carries before.view other runHandle .launching)
      (unresolved : ¬ before.HasStopped 2 1)
      (resolved : after.HasStopped 2 1) := by
    have leading :=
      Interleaving.run_of_executeIf
        (fun view turn passed => (stopsInTime_of_neither view turn passed).1)
        leads
    have taken :
        Interleaving.Step (taskServices lenientServer) TaskView.StopsInTime
          before (.resume 2 .done) after := by
      refine ⟨fun taskId => ⟨fun _ => ⟨?_, ?_⟩, fun inPhase => ?_⟩, stepped⟩
      · rintro ⟨task, member, _, active⟩
        rw [inactive task member] at active
        cases active
      · intro other runHandle carries
        exact (noneLaunches other runHandle carries).elim
      · cases inPhase.eq present
    have trailing :
        Run
          (Interleaving.Step (taskServices lenientServer)
            fun (view : TaskView) turn =>
              view.StopsInTime turn ∧ ¬ view.Restarts 1 turn)
          after leaveTurns final :=
      Interleaving.run_of_executeIf
        (fun view turn passed =>
          (stopsInTime_of_neither view turn passed).imp_right
            fun never => never 1)
        trails
    obtain ⟨moves, halts⟩ := stopTask_final _ _ _ _ _ leading taken
    exact And.intro leading <| And.intro taken <| And.intro resolved <|
      And.intro moves <| And.intro trailing <|
        halts 2 1 unresolved resolved _ _ trailing
  refine ⟨_, _, _, assembled _ _ _ rfl rfl rfl rfl ?_
    (TaskView.not_launching_of_range 4 ?_ fun _ => rfl) ?_
    ⟨_, rfl, rfl, rfl⟩⟩
  · intro task member
    cases List.mem_singleton.mp member
    rfl
  · decide
  · rintro ⟨_, present, _, resolved⟩
    cases present
    cases resolved

/--
The executor has found the task active; then the task is stopped, and its run
with it; and then the executor launches the environment and sets the run to
running.
-/
theorem stopTask_not_final :
    ∃ stopped final,
      Run (Interleaving.Step (taskServices lenientServer) fun _ _ => True)
          (.initial taskProtocol .initial)
          (createTurns ++ buildTurns ++ registerTurns ++ lookTurns ++
            stopTurns)
          stopped ∧
        stopped.HasStopped 2 1 ∧
        stopped.shared.tables.taskRuns.rows.map TaskRun.status = [.stopped] ∧
        stopped.Awaits 4 (.runEnv (buildTaskIdentifier 1) none) ∧
        Run (Interleaving.Step (taskServices lenientServer) fun _ _ => True)
          stopped [.resume 4 (.container "run"), .resume 4 .done] final ∧
        final.shared.docker.containers.map Container.name = ["run"] ∧
        final.shared.tables.taskRuns.rows.map TaskRun.status = [.running] :=
  ⟨_, _, Interleaving.run_of_foldlM rfl, ⟨_, rfl, rfl, rfl⟩, rfl,
    ⟨_, _, rfl, rfl⟩, Interleaving.run_of_foldlM rfl, rfl, rfl⟩

end Prescott
