import Prescott.RunEndings

namespace Prescott

/-!
# The launches of the runs

Beside the task calls stands a list of the containers launched so far, each
with the run it was launched for.  A run is launched only while it still waits
for its launch, and it never waits again: so there is one container for a run
at most, and the handle that its row has got is the one of this container.
-/

namespace TaskPhase

/-- The container an executor has launched, until its run has ended. -/
def launched? : TaskPhase → Option String
  | .marking container _ | .waiting container _ | .finishing container _ _ =>
      some container
  | _ => none

/-- The container whose start an executor has recorded. -/
def recorded? : TaskPhase → Option String
  | .waiting container _ | .finishing container _ _ => some container
  | _ => none

/-- A recorded container is a launched one. -/
theorem launched_of_recorded
    {phase : TaskPhase}
    {container : String}
    (recorded : phase.recorded? = some container) :
    phase.launched? = some container := by
  cases phase <;> cases recorded <;> rfl

end TaskPhase

namespace TaskView

/-- The run of a queued executor, or of a call that may still lead to its launch. -/
inductive AwaitsLaunch (view : TaskView) (runHandle : TaskRunHandle) : Prop where
  | queued (member : runHandle ∈ view.shared.queue)
  | carried (pid : Nat) (carries : view.Carries pid runHandle .waiting)
  | launching
      (pid : Nat)
      (taskConfig : TaskConfigDto)
      (present :
        view.progress pid = some ⟨.executor runHandle, .launching taskConfig⟩)

/-- The launches so far belong to what the calls and the rows say. -/
structure LaunchesKnown (view : TaskView) (launches : List (Nat × String)) : Prop where
  owned : view.RunsOwned
  nodup : (launches.map Prod.fst).Nodup
  known : ∀ launch ∈ launches, launch.1 < view.shared.tables.taskRuns.nextId
  notYet :
    ∀ runHandle,
      view.AwaitsLaunch runHandle → runHandle.runId ∉ launches.map Prod.fst
  executed :
    ∀ pid runHandle phase container,
      view.progress pid = some ⟨.executor runHandle, phase⟩ →
      phase.launched? = some container →
      (runHandle.runId, container) ∈ launches
  recorded :
    ∀ pid runHandle phase container,
      view.progress pid = some ⟨.executor runHandle, phase⟩ →
      phase.recorded? = some container →
      ∀ run ∈ view.shared.tables.taskRuns.rows,
        run.id = runHandle.runId → run.handleId = some container
  handles :
    ∀ run ∈ view.shared.tables.taskRuns.rows, ∀ container,
      run.handleId = some container → (run.id, container) ∈ launches
  started :
    ∀ run ∈ view.shared.tables.taskRuns.rows,
      run.status = .pending ∨ run.status = .stopped ∨ run.handleId.isSome = true

section Launches

variable {config : TaskServerConfig}
variable {mayFail : TaskOp → Bool}
variable {view : TaskView}
variable {launches : List (Nat × String)}
variable {pid : Nat}
variable {call : TaskCall}
variable {phase : TaskPhase}
variable {op : TaskOp}
variable {input : TaskInput ⊕ AppError}
variable {answer : Except AppError op.Result}
variable {shared : TaskState}

/-- Where a row and its handle come from in one operation. -/
inductive HandleOrigin (op : TaskOp) (before : TaskTables) (run : TaskRun) : Prop where
  | kept
      {old : TaskRun}
      (member : old ∈ before.taskRuns.rows)
      (sameId : old.id = run.id)
      (sameHandle : old.handleId = run.handleId)
      (status : old.status = run.status ∨ run.status = .stopped)
  | updated
      {old : TaskRun}
      {dto : UpdateTaskRunDto}
      (member : old ∈ before.taskRuns.rows)
      (sameId : old.id = run.id)
      (isOp : op = .updateRun run.id dto)
      (isRow : run = dto.apply old)
  | inserted
      (fresh : run.id = before.taskRuns.nextId)
      (noHandle : run.handleId = none)
      (pending : run.status = .pending)

/-- What a permitted operation does to the handles of the rows. -/
theorem handleOrigin_of_answered
    (permitted : phase.permits call op)
    (answered :
      (taskHost config).failing mayFail op input view.shared = some (answer, shared))
    {run : TaskRun}
    (member : run ∈ shared.tables.taskRuns.rows) :
    HandleOrigin op view.shared.tables run := by
  rcases Host.of_failing answered with ⟨_, answered⟩ | ⟨_, _, rfl⟩
  · cases op with
    | insertRun id rank status =>
        rcases TaskState.attempt_eq answered with
            ⟨_, _, inserted, _, rfl⟩ | ⟨_, _, _, rfl⟩
        · unfold TaskTables.insertRun at inserted
          split at inserted
          · cases inserted
            rcases Table.mem_rows_insert.mp member with old | rfl
            · exact .kept old rfl rfl (.inl rfl)
            · exact .inserted rfl rfl (TaskPhase.pending_of_permits permitted)
          · cases inserted
        · exact .kept member rfl rfl (.inl rfl)
    | updateRun id dto =>
        cases answered
        obtain ⟨old, oldMember, rfl⟩ := TaskTables.mem_updateRuns.mp member
        split
        · rename_i isRow
          cases beq_iff_eq.mp isRow
          exact .updated oldMember rfl rfl rfl
        · exact .kept oldMember rfl rfl (.inl rfl)
    | updateRunsByTaskAndStatus id status dto =>
        obtain ⟨rfl, rfl, _⟩ := TaskPhase.stopping_of_permits permitted
        simp only [TaskPhase.permits] at permitted
        rcases permitted with ⟨_, _, shape⟩ | ⟨_, shape⟩
        · cases shape
        · cases shape
          cases answered
          obtain ⟨old, oldMember, rfl⟩ := TaskTables.mem_updateRuns.mp member
          split
          · exact .kept oldMember rfl rfl (.inr rfl)
          · exact .kept oldMember rfl rfl (.inl rfl)
    | deleteTaskById id =>
        cases answered
        exact .kept (Table.mem_rows_deleteWhere.mp member).1 rfl rfl (.inl rfl)
    | _ =>
        rw [(taskHost_keeps answered).taskRuns rfl] at member
        exact .kept member rfl rfl (.inl rfl)
  · exact .kept member rfl rfl (.inl rfl)

/-- A run that awaits its launch after a move did so before, or it is new. -/
theorem AwaitsLaunch.of_answered
    (present : view.progress pid = some ⟨call, phase⟩)
    (permitted : phase.permits call op)
    (answered :
      (taskHost config).failing mayFail op input view.shared = some (answer, shared))
    {runHandle : TaskRunHandle}
    (awaits :
      TaskView.AwaitsLaunch
        (view.place pid ⟨call, phase.advance call op answer⟩ shared) runHandle) :
    view.AwaitsLaunch runHandle ∨
      runHandle.runId = view.shared.tables.taskRuns.nextId := by
  cases awaits with
  | queued member =>
      rcases queue_of_failing present permitted answered with
          sameQueue | ⟨own, rfl, grown, carriesOwn, _⟩
      · exact .inl (.queued (sameQueue ▸ member))
      · change runHandle ∈ shared.queue at member
        rw [grown] at member
        rcases List.mem_append.mp member with old | isOwn
        · exact .inl (.queued old)
        · rw [List.mem_singleton.mp isOwn]
          exact .inl (.carried pid carriesOwn)
  | carried other carries =>
      rcases carries.of_place with ⟨rfl, carried⟩ | ⟨_, earlier⟩
      · rcases TaskCall.carried_cases carried with
            ⟨rfl, isWaiting⟩ | ⟨notExecutor, registered, _⟩
        · -- only at its beginning an executor waits
          have advances := TaskPhase.advances_advance answer permitted
          generalize phase.advance (.executor runHandle) op answer = next
            at advances isWaiting
          cases advances with
          | failed fails =>
              cases fails with
              | same =>
                  exact .inl (.carried other
                    ⟨_, _, present, by simp [TaskCall.carried, isWaiting]⟩)
              | _ => cases isWaiting
          | present | dispatched => cases isWaiting
          | _ => cases isWaiting
        · rcases carried_of_advance present permitted answered carried with
              ⟨stage, earlier⟩ | ⟨isNew, _⟩
          · obtain ⟨otherCall, otherPhase, found, earlierCarried⟩ := earlier
            rw [present] at found
            cases found
            rcases TaskCall.carried_cases earlierCarried with
                ⟨rfl, _⟩ | ⟨_, earlierRegistered, rfl⟩
            · exact (notExecutor _ rfl).elim
            · exact .inl (.carried other ⟨_, _, present, earlierCarried⟩)
          · exact .inr isNew
      · exact .inl (.carried other earlier)
  | launching other taskConfig found =>
      rcases Protocol.View.place_cases found with ⟨rfl, shape⟩ | ⟨_, earlier⟩
      · obtain ⟨rfl, shape⟩ := Protocol.Progress.mk.inj shape
        have advances := TaskPhase.advances_advance answer permitted
        rw [← shape] at advances
        cases advances with
        | failed fails =>
            cases fails with
            | same => exact .inl (.launching other taskConfig present)
        | runs => exact .inl (.carried other ⟨_, _, present, rfl⟩)
      · exact .inl (.launching other taskConfig earlier)

end Launches

end TaskView

/-- The task calls, and what they have launched so far. -/
structure RunLaunches where
  calls : Interleaving TaskState taskProtocol
  launches : List (Nat × String)

namespace RunLaunches

/-- Nothing has begun. -/
def initial : RunLaunches where
  calls := .initial taskProtocol .initial
  launches := []

/-- The container that a turn launches, with its run. -/
def launched
    (config : TaskServerConfig)
    (mayFail : TaskOp → Bool)
    (calls : Interleaving TaskState taskProtocol) :
    Turn TaskCall (TaskInput ⊕ AppError) → List (Nat × String)
  | .invoke _ _ => []
  | .resume pid input =>
      match calls.processes pid with
      | some ⟨.executor runHandle, _, .await (.runEnv envId limitations) _⟩ =>
          match (taskHost config).failing mayFail (.runEnv envId limitations) input
              calls.shared with
          | some (.ok container, _) => [(runHandle.runId, container)]
          | _ => []
      | _ => []

/-- A turn of the task calls, whose launch is written down. -/
def step?
    (config : TaskServerConfig)
    (mayFail : TaskOp → Bool)
    (before : RunLaunches)
    (turn : Turn TaskCall (TaskInput ⊕ AppError)) :
    Option RunLaunches :=
  (before.calls.step? ((taskServices config).failing mayFail) turn).map fun calls =>
    { calls
      launches := before.launches ++ launched config mayFail before.calls turn }

/-- A transition of the calls and the list. -/
def Step
    (config : TaskServerConfig)
    (mayFail : TaskOp → Bool)
    (before : RunLaunches)
    (turn : Turn TaskCall (TaskInput ⊕ AppError))
    (after : RunLaunches) :
    Prop :=
  before.step? config mayFail turn = some after

section Step

variable {config : TaskServerConfig}
variable {mayFail : TaskOp → Bool}

/-- An answer launches nothing, or it is the launch of a run by its executor. -/
theorem launched_cases
    {calls : Interleaving TaskState taskProtocol}
    {pid : Nat}
    {call : TaskCall}
    {phase : TaskPhase}
    {op : TaskOp}
    {resume : Except AppError op.Result → TaskProgram TaskReply}
    {input : TaskInput ⊕ AppError}
    {answer : Except AppError op.Result}
    {shared : TaskState}
    (present : calls.processes pid = some ⟨call, phase, .await op resume⟩)
    (permitted : phase.permits call op)
    (answered :
      (taskHost config).failing mayFail op input calls.shared =
        some (answer, shared)) :
    (launched config mayFail calls (.resume pid input) = [] ∧
        ∀ container,
          (phase.advance call op answer).launched? = some container →
          phase.launched? = some container) ∨
      ∃ runHandle taskConfig container,
        call = .executor runHandle ∧ phase = .launching taskConfig ∧
          launched config mayFail calls (.resume pid input) =
            [(runHandle.runId, container)] ∧
          phase.advance call op answer = .marking container taskConfig.times ∧
          shared.tables = calls.shared.tables ∧
          shared.queue = calls.shared.queue := by
  have advances := TaskPhase.advances_advance answer permitted
  simp only [launched, present]
  split
  · rename_i runHandle _ envId limitations _ shape
    cases shape
    obtain ⟨_, taskConfig, isCall, rfl, _⟩ := TaskPhase.launching_of_permits permitted
    cases isCall
    rw [answered]
    cases answer with
    | ok container =>
        rcases Host.of_failing answered with ⟨_, answered⟩ | ⟨_, ⟨_, rejected⟩, _⟩
        · obtain ⟨docker, rfl⟩ := TaskState.command_eq answered
          exact .inr ⟨_, taskConfig, container, rfl, rfl, rfl, rfl, rfl, rfl⟩
        · cases rejected
    | error reason =>
        refine .inl ⟨rfl, fun container isLaunched => ?_⟩
        cases isLaunched
  · rename_i notLaunch
    refine .inl ⟨rfl, fun container isLaunched => ?_⟩
    generalize phase.advance call op answer = next at advances isLaunched
    cases advances with
    | failed fails =>
        cases fails with
        | same => exact isLaunched
        | _ => cases isLaunched
    | present | dispatched => cases call <;> cases isLaunched
    | launched =>
        obtain ⟨runHandle, _, rfl, _⟩ := TaskPhase.launching_of_permits permitted
        exact (notLaunch _ _ _ _ _ rfl).elim
    | marked => exact isLaunched
    | terminated => exact isLaunched
    | _ => cases isLaunched

end Step

end RunLaunches

namespace TaskView

section Launches

variable {config : TaskServerConfig}
variable {mayFail : TaskOp → Bool}
variable {view : TaskView}
variable {launches : List (Nat × String)}
variable {pid : Nat}
variable {call : TaskCall}
variable {phase : TaskPhase}
variable {op : TaskOp}
variable {input : TaskInput ⊕ AppError}
variable {answer : Except AppError op.Result}
variable {shared : TaskState}

/-- The number that the next run gets never goes back. -/
theorem nextId_le_of_failing
    (answered :
      (taskHost config).failing mayFail op input view.shared = some (answer, shared)) :
    view.shared.tables.taskRuns.nextId ≤ shared.tables.taskRuns.nextId := by
  rcases Host.of_failing answered with ⟨_, answered⟩ | ⟨_, _, rfl⟩
  · exact (runsStep_of_answered answered).nextId_le
  · exact Nat.le_refl _

/-- An executor carries its run. -/
theorem carries_of_executor
    {runHandle : TaskRunHandle}
    (present : view.progress pid = some ⟨.executor runHandle, phase⟩) :
    view.Carries pid runHandle phase.stage :=
  ⟨_, _, present, rfl⟩

/-- What an executor writes into its row: the container, or only a status. -/
theorem updated_cases
    (known : view.LaunchesKnown launches)
    (present : view.progress pid = some ⟨call, phase⟩)
    {id : Nat}
    {dto : UpdateTaskRunDto}
    (permitted : phase.permits call (.updateRun id dto)) :
    ∃ runHandle,
      call = .executor runHandle ∧ id = runHandle.runId ∧
        ((∃ container times,
            phase = .marking container times ∧
              dto = { status := .running, handleId := some container } ∧
              (id, container) ∈ launches) ∨
          dto.handleId = none ∧
            ∀ run ∈ view.shared.tables.taskRuns.rows,
              run.id = id → run.handleId.isSome = true) := by
  cases phase <;> simp [TaskPhase.permits] at permitted
  case beginning => cases call <;> simp [TaskCall.firstOp] at permitted
  case marking container times =>
    obtain ⟨runHandle, rfl, rfl, rfl⟩ := permitted
    exact ⟨runHandle, rfl, rfl,
      .inl ⟨container, times, rfl, rfl, known.executed _ _ _ _ present rfl⟩⟩
  case finishing container exitCode times =>
    obtain ⟨runHandle, rfl, rfl, rfl⟩ := permitted
    refine ⟨runHandle, rfl, rfl, .inr ⟨rfl, fun run member isRun => ?_⟩⟩
    rw [known.recorded _ _ _ _ present rfl run member isRun]
    rfl

/-- The rows of a run whose start is recorded keep the container. -/
theorem LaunchesKnown.recorded_kept
    (known : view.LaunchesKnown launches)
    (present : view.progress pid = some ⟨call, phase⟩)
    (permitted : phase.permits call op)
    (answered :
      (taskHost config).failing mayFail op input view.shared = some (answer, shared))
    {other : Nat}
    {runHandle : TaskRunHandle}
    {otherPhase : TaskPhase}
    {container : String}
    (found : view.progress other = some ⟨.executor runHandle, otherPhase⟩)
    (recorded : otherPhase.recorded? = some container)
    {run : TaskRun}
    (member : run ∈ shared.tables.taskRuns.rows)
    (isRun : run.id = runHandle.runId) :
    run.handleId = some container := by
  cases handleOrigin_of_answered permitted answered member with
  | kept oldMember sameId sameHandle _ =>
      rw [← sameHandle]
      exact known.recorded _ _ _ _ found recorded _ oldMember (sameId.trans isRun)
  | @updated old dto oldMember sameId isOp isRow =>
      subst isOp
      obtain ⟨own, rfl, isOwn, writes⟩ := updated_cases known present permitted
      -- only the executor itself writes to its row
      have samePid : pid = other :=
        known.owned.unique _ _ _ _ _ _ (carries_of_executor present)
          (carries_of_executor found) (isOwn.symm.trans isRun)
      subst samePid
      rw [present] at found
      obtain ⟨_, rfl⟩ := Protocol.Progress.mk.inj (Option.some.inj found)
      rcases writes with ⟨_, _, rfl, _⟩ | ⟨noHandle, _⟩
      · cases recorded
      · have oldHandle :=
          known.recorded _ _ _ _ present recorded old oldMember (sameId.trans isOwn)
        rw [isRow]
        simp only [UpdateTaskRunDto.apply, noHandle, Option.orElse_none]
        exact oldHandle
  | inserted fresh =>
      have isKnown := (known.owned.known _ _ _ (carries_of_executor found)).known
      exact (Nat.ne_of_lt isKnown (isRun.symm.trans fresh)).elim

/-- A start is recorded before, or it is recorded by the answer. -/
theorem recorded_advance
    (permitted : phase.permits call op)
    {container : String}
    (recorded : (phase.advance call op answer).recorded? = some container) :
    phase.recorded? = some container ∨
      answer.isOk = true ∧
        ∃ runHandle,
          call = .executor runHandle ∧
            op =
              .updateRun runHandle.runId
                { status := .running, handleId := some container } := by
  have advances := TaskPhase.advances_advance answer permitted
  generalize phase.advance call op answer = next at advances recorded
  cases advances with
  | failed fails =>
      cases fails with
      | same => exact .inl recorded
      | _ => cases recorded
  | present | dispatched => cases call <;> cases recorded
  | marked =>
      obtain ⟨runHandle, rfl, rfl⟩ := permitted
      cases recorded
      exact .inr ⟨rfl, runHandle, rfl, rfl⟩
  | terminated => exact .inl recorded
  | _ => cases recorded

/-- The row of a run has the container that its executor writes into it. -/
theorem handle_of_updated
    {id : Nat}
    {container : String}
    {answer : Except AppError Unit}
    (answered :
      (taskHost config).failing mayFail
          (.updateRun id { status := .running, handleId := some container }) input
          view.shared =
        some (answer, shared))
    (resolved : answer.isOk = true)
    {run : TaskRun}
    (member : run ∈ shared.tables.taskRuns.rows)
    (isRun : run.id = id) :
    run.handleId = some container := by
  rcases Host.of_failing answered with ⟨_, answered⟩ | ⟨_, ⟨_, rejected⟩, _⟩
  · cases answered
    obtain ⟨old, oldMember, rfl⟩ := TaskTables.mem_updateRuns.mp member
    split at isRun
    · rename_i isRow
      rw [if_pos isRow]
      rfl
    · rename_i notRow
      exact (notRow (beq_iff_eq.mpr isRun)).elim
  · rw [rejected] at resolved
    cases resolved

/-- The handle of a row is a container that has been launched for the run. -/
theorem LaunchesKnown.handles_kept
    (known : view.LaunchesKnown launches)
    (present : view.progress pid = some ⟨call, phase⟩)
    (permitted : phase.permits call op)
    (answered :
      (taskHost config).failing mayFail op input view.shared = some (answer, shared))
    {run : TaskRun}
    (member : run ∈ shared.tables.taskRuns.rows) :
    (∀ container, run.handleId = some container → (run.id, container) ∈ launches) ∧
      (run.status = .pending ∨ run.status = .stopped ∨ run.handleId.isSome = true) := by
  cases handleOrigin_of_answered permitted answered member with
  | @kept old oldMember sameId sameHandle status =>
      rw [← sameId, ← sameHandle]
      refine ⟨known.handles old oldMember, ?_⟩
      rcases status with sameStatus | isStopped
      · rw [← sameStatus]
        exact known.started old oldMember
      · exact .inr (.inl isStopped)
  | @updated old dto oldMember sameId isOp isRow =>
      subst isOp
      obtain ⟨own, rfl, isOwn, ⟨container, _, _, rfl, launched⟩ | ⟨noHandle, hasHandle⟩⟩ :=
        updated_cases known present permitted
      · have handle : run.handleId = some container := by
          rw [isRow]
          rfl
        rw [handle]
        refine ⟨?_, .inr (.inr rfl)⟩
        rintro _ ⟨⟩
        exact launched
      · have handle : run.handleId = old.handleId := by
          rw [isRow]
          simp [UpdateTaskRunDto.apply, noHandle]
        rw [handle, ← sameId]
        exact ⟨known.handles old oldMember,
          .inr (.inr (hasHandle old oldMember sameId))⟩
  | inserted _ noHandle pending =>
      rw [noHandle]
      exact ⟨nofun, .inl pending⟩

/-- An answer that launches nothing. -/
theorem LaunchesKnown.answered
    (known : view.LaunchesKnown launches)
    (present : view.progress pid = some ⟨call, phase⟩)
    (permitted : phase.permits call op)
    (answered :
      (taskHost config).failing mayFail op input view.shared = some (answer, shared))
    (noLaunch :
      ∀ container,
        (phase.advance call op answer).launched? = some container →
        phase.launched? = some container) :
    TaskView.LaunchesKnown
      (view.place pid ⟨call, phase.advance call op answer⟩ shared) launches where
  owned := known.owned.answered present permitted answered
  nodup := known.nodup
  known := fun launch member =>
    Nat.lt_of_lt_of_le (known.known launch member) (nextId_le_of_failing answered)
  notYet := by
    intro runHandle awaits listed
    rcases awaits.of_answered present permitted answered with before | isNew
    · exact known.notYet runHandle before listed
    · obtain ⟨launch, member, sameId⟩ := List.mem_map.mp listed
      exact Nat.ne_of_lt (known.known launch member) (sameId.trans isNew)
  executed := by
    intro other runHandle otherPhase container found isLaunched
    rcases Protocol.View.place_cases found with ⟨rfl, shape⟩ | ⟨_, earlier⟩
    · obtain ⟨rfl, rfl⟩ := Protocol.Progress.mk.inj shape
      exact known.executed _ _ _ _ present (noLaunch container isLaunched)
    · exact known.executed _ _ _ _ earlier isLaunched
  recorded := by
    intro other runHandle otherPhase container found isRecorded run member isRun
    rcases Protocol.View.place_cases found with ⟨rfl, shape⟩ | ⟨_, earlier⟩
    · obtain ⟨rfl, rfl⟩ := Protocol.Progress.mk.inj shape
      rcases recorded_advance permitted isRecorded with
          before | ⟨resolved, own, isCall, rfl⟩
      · exact known.recorded_kept present permitted answered present before member isRun
      · cases isCall
        exact handle_of_updated answered resolved member isRun
    · exact known.recorded_kept present permitted answered earlier isRecorded member isRun
  handles := fun run member =>
    (known.handles_kept present permitted answered member).1
  started := fun run member =>
    (known.handles_kept present permitted answered member).2

/-- An answer that launches a container for a run that has waited for it. -/
theorem LaunchesKnown.launched
    {runHandle : TaskRunHandle}
    {taskConfig : TaskConfigDto}
    {container : String}
    {times : Option Rat}
    (known : view.LaunchesKnown launches)
    (present : view.progress pid = some ⟨.executor runHandle, .launching taskConfig⟩)
    (owned :
      TaskView.RunsOwned
        (view.place pid ⟨.executor runHandle, .marking container times⟩ shared))
    (sameTables : shared.tables = view.shared.tables)
    (sameQueue : shared.queue = view.shared.queue) :
    TaskView.LaunchesKnown
      (view.place pid ⟨.executor runHandle, .marking container times⟩ shared)
      (launches ++ [(runHandle.runId, container)]) := by
  have notLaunched := known.notYet runHandle (.launching pid taskConfig present)
  have carries :
      TaskView.Carries
        (view.place pid ⟨.executor runHandle, .marking container times⟩ shared) pid
        runHandle .launching :=
    ⟨_, _, Function.update_self .., rfl⟩
  refine ⟨owned, ?_, ?_, ?_, ?_, ?_, ?_, ?_⟩
  · rw [List.map_append]
    refine known.nodup.append (List.nodup_singleton _) ?_
    rw [List.map_singleton, List.disjoint_singleton]
    exact notLaunched
  · intro launch member
    change launch.1 < shared.tables.taskRuns.nextId
    rw [sameTables]
    rcases List.mem_append.mp member with old | isNew
    · exact known.known launch old
    · rw [List.mem_singleton.mp isNew]
      exact (known.owned.known _ _ _ (carries_of_executor present)).known
  · intro other awaits listed
    rw [List.map_append, List.mem_append, List.map_singleton, List.mem_singleton]
      at listed
    have different : other.runId ≠ runHandle.runId := by
      intro same
      cases awaits with
      | queued member =>
          exact owned.notQueued _ _ _ carries (List.mem_map.mpr ⟨other, member, same⟩)
      | carried otherPid otherCarries =>
          obtain rfl := owned.unique _ _ _ _ _ _ carries otherCarries same.symm
          obtain ⟨_, _, found, carried⟩ := otherCarries
          obtain ⟨_, _, ownFound, ownCarried⟩ := carries
          rw [ownFound] at found
          cases found
          rw [ownCarried] at carried
          cases carried
      | launching otherPid otherConfig found =>
          obtain rfl :=
            owned.unique _ _ _ _ _ _ carries (carries_of_executor found) same.symm
          simp [Protocol.View.place] at found
    rcases listed with old | same
    · refine known.notYet other ?_ old
      cases awaits with
      | queued member => exact .queued (sameQueue ▸ member)
      | carried otherPid otherCarries =>
          rcases otherCarries.of_place with ⟨_, carried⟩ | ⟨_, earlier⟩
          · cases carried
          · exact .carried otherPid earlier
      | launching otherPid otherConfig found =>
          rcases Protocol.View.place_cases found with ⟨_, shape⟩ | ⟨_, earlier⟩
          · cases shape
          · exact .launching otherPid otherConfig earlier
    · exact different same
  · intro other otherHandle otherPhase otherContainer found isLaunched
    rcases Protocol.View.place_cases found with ⟨_, shape⟩ | ⟨_, earlier⟩
    · cases shape
      cases isLaunched
      exact List.mem_append_right _ (List.mem_singleton.mpr rfl)
    · exact List.mem_append_left _ (known.executed _ _ _ _ earlier isLaunched)
  · intro other otherHandle otherPhase otherContainer found isRecorded run member isRun
    change run ∈ shared.tables.taskRuns.rows at member
    rw [sameTables] at member
    rcases Protocol.View.place_cases found with ⟨_, shape⟩ | ⟨_, earlier⟩
    · cases shape
      cases isRecorded
    · exact known.recorded _ _ _ _ earlier isRecorded run member isRun
  · intro run member otherContainer handle
    change run ∈ shared.tables.taskRuns.rows at member
    rw [sameTables] at member
    exact List.mem_append_left _ (known.handles run member otherContainer handle)
  · intro run member
    change run ∈ shared.tables.taskRuns.rows at member
    rw [sameTables] at member
    exact known.started run member

/-- The beginning of a call launches nothing. -/
theorem LaunchesKnown.begun
    (known : view.LaunchesKnown launches)
    (begun : beginTaskCall config call view.shared = some shared) :
    TaskView.LaunchesKnown
      (view.place pid ⟨call, taskProtocol.start call⟩ shared) launches := by
  have sameTables := (beginTaskCall_keeps begun).1
  have startsBare : ∀ container, (taskProtocol.start call).launched? ≠ some container := by
    intro container
    cases call <;> nofun
  refine ⟨known.owned.begun begun, known.nodup, ?_, ?_, ?_, ?_, ?_, ?_⟩
  · intro launch member
    change launch.1 < shared.tables.taskRuns.nextId
    rw [sameTables]
    exact known.known launch member
  · intro runHandle awaits
    refine known.notYet runHandle ?_
    cases awaits with
    | queued member => exact .queued (mem_queue_of_begun begun member)
    | carried other carries =>
        rcases carries.of_begun begun with earlier | ⟨_, _, shape⟩
        · exact .carried other earlier
        · exact .queued (by rw [shape]; exact List.mem_cons_self)
    | launching other taskConfig found =>
        rcases Protocol.View.place_cases found with ⟨_, shape⟩ | ⟨_, earlier⟩
        · cases call <;> cases shape
        · exact .launching other taskConfig earlier
  · intro other runHandle otherPhase container found isLaunched
    rcases Protocol.View.place_cases found with ⟨_, shape⟩ | ⟨_, earlier⟩
    · obtain ⟨_, rfl⟩ := Protocol.Progress.mk.inj shape
      exact (startsBare container isLaunched).elim
    · exact known.executed _ _ _ _ earlier isLaunched
  · intro other runHandle otherPhase container found isRecorded run member isRun
    change run ∈ shared.tables.taskRuns.rows at member
    rw [sameTables] at member
    rcases Protocol.View.place_cases found with ⟨_, shape⟩ | ⟨_, earlier⟩
    · obtain ⟨_, rfl⟩ := Protocol.Progress.mk.inj shape
      exact (startsBare container (TaskPhase.launched_of_recorded isRecorded)).elim
    · exact known.recorded _ _ _ _ earlier isRecorded run member isRun
  · intro run member
    change run ∈ shared.tables.taskRuns.rows at member
    rw [sameTables] at member
    exact known.handles run member
  · intro run member
    change run ∈ shared.tables.taskRuns.rows at member
    rw [sameTables] at member
    exact known.started run member

end Launches

end TaskView

namespace RunLaunches

variable {config : TaskServerConfig}
variable {mayFail : TaskOp → Bool}
variable {before after : RunLaunches}
variable {turn : Turn TaskCall (TaskInput ⊕ AppError)}

/-- The programs are in their phases, and the launches are what the phases say. -/
structure Recorded (state : RunLaunches) : Prop where
  conforming : state.calls.Conforming
  known : TaskView.LaunchesKnown state.calls.view state.launches

theorem Recorded.step
    (recorded : before.Recorded)
    (taken : Step config mayFail before turn after) :
    after.Recorded := by
  obtain ⟨calls, stepped, rfl⟩ := Option.map_eq_some_iff.mp taken
  have isStep :
      Interleaving.Step ((taskServices config).failing mayFail) (fun _ _ => True)
        before.calls turn calls :=
    ⟨trivial, stepped⟩
  refine ⟨(isStep.moves TaskPhase.conforms_taskBody recorded.conforming).2, ?_⟩
  cases turn with
  | invoke pid call =>
      simp only [Interleaving.step?] at stepped
      split at stepped
      · cases stepped
      · obtain ⟨shared, begun, rfl⟩ := Option.map_eq_some_iff.mp stepped
        simp only [launched, List.append_nil, Interleaving.view_update]
        exact recorded.known.begun begun
  | resume pid input =>
      obtain ⟨⟨call, phase, residual⟩, op, resume, answer, shared, present, awaiting,
        answered, rfl⟩ := Interleaving.step?_resume stepped
      change residual = _ at awaiting
      subst awaiting
      have conforms := recorded.conforming pid _ present
      have inView : before.calls.view.progress pid = some ⟨call, phase⟩ := by
        simp [Interleaving.view, present]
      simp only [Interleaving.view_update]
      rcases launched_cases present conforms.1 answered with
          ⟨nothing, noLaunch⟩ |
          ⟨runHandle, taskConfig, container, rfl, rfl, one, isMarking, sameTables,
            sameQueue⟩
      · rw [nothing, List.append_nil]
        exact recorded.known.answered inView conforms.1 answered noLaunch
      · have owned := recorded.known.owned.answered inView conforms.1 answered
        change TaskView.LaunchesKnown (Protocol.View.place _ pid
          ⟨_, TaskPhase.advance _ _ op answer⟩ shared) _
        change TaskView.RunsOwned (Protocol.View.place _ pid
          ⟨_, TaskPhase.advance _ _ op answer⟩ shared) at owned
        rw [isMarking] at owned ⊢
        rw [one]
        exact recorded.known.launched inView owned sameTables sameQueue

theorem recorded_initial : initial.Recorded where
  conforming := by
    rintro pid process ⟨⟩
  known :=
    { owned := TaskView.RunsCarried.initially.owned
      nodup := List.nodup_nil
      known := nofun
      notYet := fun _ _ => List.not_mem_nil
      executed := by
        rintro pid runHandle phase container ⟨⟩
      recorded := by
        rintro pid runHandle phase container ⟨⟩
      handles := by
        rintro run ⟨⟩
      started := by
        rintro run ⟨⟩ }

end RunLaunches

/--
In every interleaving of the task calls, whatever calls fail, at most one
container is launched for a run; the handle in the row of a run is this
container, and a run that is running or has ended by itself has one.
-/
theorem runs_launchedOnce
    {config : TaskServerConfig}
    {mayFail : TaskOp → Bool}
    {turns : List (Turn TaskCall (TaskInput ⊕ AppError))}
    {final : RunLaunches}
    (run : Run (RunLaunches.Step config mayFail) .initial turns final) :
    (final.launches.map Prod.fst).Nodup ∧
      ∀ taskRun ∈ final.calls.shared.tables.taskRuns.rows,
        (∀ container,
          taskRun.handleId = some container → (taskRun.id, container) ∈ final.launches) ∧
        (taskRun.status = .running ∨ taskRun.status = .succeed ∨
            taskRun.status = .failed →
          ∃ container,
            taskRun.handleId = some container ∧ (taskRun.id, container) ∈ final.launches) := by
  have recorded :=
    run.invariant RunLaunches.Recorded (fun _ _ _ held taken => held.step taken)
      RunLaunches.recorded_initial
  refine ⟨recorded.known.nodup, fun taskRun member => ?_⟩
  have handles := recorded.known.handles taskRun member
  refine ⟨handles, fun isStarted => ?_⟩
  have hasHandle : taskRun.handleId.isSome = true := by
    rcases recorded.known.started taskRun member with pending | stopped | some
    · rw [pending] at isStarted
      simp at isStarted
    · rw [stopped] at isStarted
      simp at isStarted
    · exact some
  obtain ⟨container, handle⟩ := Option.isSome_iff_exists.mp hasHandle
  exact ⟨container, handle, handles container handle⟩

/-- The executor of a run launches its container and records the start. -/
def launchOnceTurns : List (Turn TaskCall (TaskInput ⊕ AppError)) :=
  firedTurns ++
    [.invoke 3 (.executor ⟨1, 1, .infinity⟩), .resume 3 (.inl .done),
      .resume 3 (.inl (.container "worker")), .resume 3 (.inl .done)]

theorem runs_launchedOnce_worker :
    ∃ final,
      Run (RunLaunches.Step lenientServer fun _ => false) .initial launchOnceTurns final ∧
        final.launches = [(1, "worker")] ∧
        ∃ taskRun ∈ final.calls.shared.tables.taskRuns.rows,
          taskRun.status = .running ∧
            ∃ container,
              taskRun.handleId = some container ∧
                (taskRun.id, container) ∈ final.launches := by
  have run
      (final : RunLaunches)
      (executed :
        launchOnceTurns.foldlM (RunLaunches.step? lenientServer fun _ => false)
            RunLaunches.initial =
          some final) :
      Run (RunLaunches.Step lenientServer fun _ => false) .initial launchOnceTurns final :=
    Run.of_foldlM executed
  exact ⟨_, run _ rfl, rfl, _, List.mem_cons_self, rfl,
    ((runs_launchedOnce (run _ rfl)).2 _ List.mem_cons_self).2 (.inl rfl)⟩

end Prescott
