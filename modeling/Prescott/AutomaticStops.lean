import Prescott.TendedContainers

namespace Prescott

/-!
# The stop after the last run

The executor of a run whose rank reaches the limit stops the task, whatever the
other runs are at.  No run is registered any more by then; so the stop comes
after all of them, and finds no container to stop, when the last run is the last
one in flight and no executor has given its run up.
-/

namespace TaskTables

/-- The other runs of the task are over. -/
def OthersFinal (tables : TaskTables) (runHandle : TaskRunHandle) : Prop :=
  ∀ run ∈ tables.taskRuns.rows,
    run.taskId = runHandle.taskId →
    run.id ≠ runHandle.runId →
    run.status.isFinal = true

/-- The run is numbered among the runs of its task, as long as there is one. -/
def Numbers (tables : TaskTables) (runHandle : TaskRunHandle) : Prop :=
  runHandle.taskId < tables.tasks.nextId ∧
    (tables.Has runHandle.taskId →
      runHandle.runRank ∈ tables.ranksOf runHandle.taskId)

/-- The rank of the run reaches the limit of its task. -/
def ReachesLimit (tables : TaskTables) (runHandle : TaskRunHandle) : Prop :=
  ∃ limit,
    tables.HasTimes runHandle.taskId (some limit) ∧
      runHandle.runRank.reaches limit = true

variable {tables before after : TaskTables}
variable {runHandle : TaskRunHandle}
variable {rank : RunRank}

/-- A task that is known now and there later is there now. -/
theorem KeepsTimes.has
    {taskId : Nat}
    (keeps : KeepsTimes before after)
    (known : taskId < before.tasks.nextId)
    (has : after.Has taskId) :
    before.Has taskId := by
  obtain ⟨task, member, rfl⟩ := has
  obtain ⟨earlier, earlierMember, sameId, _⟩ := keeps.old task member known
  exact ⟨earlier, earlierMember, sameId⟩

theorem ReachesLimit.kept
    (reaches : before.ReachesLimit runHandle)
    (keeps : KeepsTimes before after) :
    after.ReachesLimit runHandle :=
  let ⟨limit, hasTimes, isReached⟩ := reaches
  ⟨limit, hasTimes.kept keeps, isReached⟩

/-- Once the last run is numbered, there is no next one. -/
theorem Numbers.not_isNextRank
    (numbers : tables.Numbers runHandle)
    (reaches : tables.ReachesLimit runHandle)
    (limited : tables.RunsLimited)
    (has : tables.Has runHandle.taskId) :
    ¬ tables.IsNextRank runHandle.taskId rank := by
  intro isNext
  obtain ⟨limit, hasTimes, isReached⟩ := reaches
  have numbered := numbers.2 has
  obtain ⟨task, member, sameId⟩ := has
  have isLimited := hasTimes.2 task member sameId
  obtain ⟨_, allowed⟩ := isNext.2 task member sameId limit isLimited
  obtain ⟨count, ranks, _⟩ := limited task member limit isLimited
  rw [sameId] at ranks
  rw [ranks, length_firstRanks] at allowed
  rw [ranks] at numbered
  obtain ⟨index, inRange, sameRank⟩ := List.mem_map.mp numbered
  rw [← sameRank, RunRank.reaches, decide_eq_true_eq] at isReached
  have within : ((index + 1 : Nat) : Rat) ≤ (count : Rat) :=
    Nat.cast_le.mpr (List.mem_range.mp inRange)
  exact absurd (isReached.trans within) (not_le_of_gt allowed)

end TaskTables

namespace TaskPhase

/-- The executor is stopping its task after the last run. -/
def stopsAutomatically : TaskPhase → Bool
  | .autoUnscheduling | .autoStopping => true
  | _ => false

/-- The run has finished, and its executor will stop the task. -/
def Ends (runHandle : TaskRunHandle) : TaskPhase → Prop
  | .removing _ times =>
      ∃ limit, times = some limit ∧ runHandle.runRank.reaches limit = true
  | phase => phase.stopsAutomatically = true

/-- The limit that an executor has read together with the config. -/
def runTimes : TaskPhase → Option (Option Rat)
  | .launching taskConfig => some taskConfig.times
  | .marking _ times | .waiting _ times | .finishing _ _ times
  | .removing _ times => some times
  | _ => none

variable {call : TaskCall}
variable {phase : TaskPhase}
variable {op : TaskOp}
variable {answer : Except AppError op.Result}
variable {runHandle : TaskRunHandle}

/-- An executor comes to end its task by finishing the last run. -/
theorem ends_advance
    (permitted : phase.permits (.executor runHandle) op)
    (ends : (phase.advance (.executor runHandle) op answer).Ends runHandle) :
    phase.Ends runHandle ∨
      ∃ container exitCode limit,
        phase = .finishing container exitCode (some limit) ∧
          runHandle.runRank.reaches limit = true := by
  have advances := advances_advance answer permitted
  generalize phase.advance (.executor runHandle) op answer = next
    at advances ends
  cases advances with
  | failed fails =>
      cases fails with
      | same => exact .inl ends
      | _ => cases ends
  | finished =>
      obtain ⟨limit, rfl, reaches⟩ := ends
      exact .inr ⟨_, _, limit, rfl, reaches⟩
  | reached isCall reaches =>
      cases isCall
      exact .inl ⟨_, rfl, reaches⟩
  | autoUnscheduled | autoStopping => exact .inl rfl
  | _ => cases ends

/-- An executor goes on with the limit of its task. -/
theorem runTimes_advance
    {config : TaskServerConfig}
    {input : TaskInput}
    {before after : TaskState}
    {times : Option Rat}
    (permitted : phase.permits (.executor runHandle) op)
    (answered : taskHost config op input before = some (answer, after))
    (carried :
      (phase.advance (.executor runHandle) op answer).runTimes = some times) :
    phase.runTimes = some times ∨
      after.tables.HasTimes runHandle.taskId times := by
  have advances := advances_advance answer permitted
  generalize phase.advance (.executor runHandle) op answer = next
    at advances carried
  cases advances with
  | failed fails =>
      cases fails with
      | same => exact .inl carried
      | _ => cases carried
  | runs isCall =>
      cases isCall
      cases carried
      exact .inr (hasTimes_of_found answered)
  | launched | marked | terminated | finished => exact .inl carried
  | _ => cases carried

/-- An executor that has a run to settle has had it before. -/
theorem unsettled_advance
    {config : TaskServerConfig}
    {input : TaskInput}
    {before after : TaskState}
    (permitted : phase.permits (.executor runHandle) op)
    (answered : taskHost config op input before = some (answer, after))
    (unsettled :
      (phase.advance (.executor runHandle) op answer).course = .unstarted ∨
        (phase.advance (.executor runHandle) op answer).course = .running) :
    phase.course = .unstarted ∨ phase.course = .running := by
  have resolves :
      (taskHost config).failing TaskOp.mayReject op (.inl input) before =
        some (answer, after) :=
    answered
  have moves := executorMoves_advance answer permitted
  generalize phase.advance (.executor runHandle) op answer = next at moves unsettled
  cases moves with
  | stays _ same => rwa [same] at unsettled
  | starts => exact .inl rfl
  | unwritten isWrite => exact (not_rejected_of_write resolves isWrite).elim
  | abandons | skips | loses | finishes | givesUp | sweeps =>
      rcases unsettled with unsettled | unsettled <;> cases unsettled

end TaskPhase

namespace TaskView

/-- A run waits, or its executor has not recorded its end yet. -/
def InFlight (view : TaskView) (runHandle : TaskRunHandle) : Prop :=
  view.Unexecuted runHandle ∨
    ∃ pid phase,
      view.progress pid = some ⟨.executor runHandle, phase⟩ ∧
        (phase.course = .unstarted ∨ phase.course = .running)

/-- The run is pending, and its executor stops the task after a failure. -/
def Abandoned (view : TaskView) (runHandle : TaskRunHandle) : Prop :=
  ∃ pid phase,
    view.progress pid = some ⟨.executor runHandle, phase⟩ ∧
      phase.course = .abandoned ∧
        ∃ run ∈ view.shared.tables.taskRuns.rows,
          run.id = runHandle.runId ∧ run.status = .pending

/-- No other run of the task is in flight. -/
def Alone (view : TaskView) (runHandle : TaskRunHandle) : Prop :=
  ∀ other,
    view.InFlight other →
    other.taskId = runHandle.taskId →
    other.runId = runHandle.runId

/--
The condition on an answer to the executor of a run: where the rank of the run
reaches the limit and its end is recorded, no other run of the task is in
flight or abandoned; the executor does not give its run up; and it inspects the
exit code of no container but one that has terminated.
-/
structure FinishesLast
    (config : TaskServerConfig)
    (view : TaskView)
    (runHandle : TaskRunHandle)
    (phase : TaskPhase)
    (op : TaskOp)
    (input : TaskInput) :
    Prop where
  last :
    ∀ container exitCode limit,
      phase = .finishing container exitCode (some limit) →
      runHandle.runRank.reaches limit = true →
      ∀ other,
        view.InFlight other ∨ view.Abandoned other →
        other.taskId = runHandle.taskId →
        other.runId = runHandle.runId
  keepsCourse :
    ∀ run ∈ view.shared.tables.taskRuns.rows,
      run.id = runHandle.runId →
      KeepsCourse config view.shared runHandle.taskId phase op (.inl input) run.status
  inspects : InspectsTerminated view.shared.docker op

end TaskView

/-- The condition on a turn, for the executor that it answers. -/
def Interleaving.FinishesLast
    (config : TaskServerConfig)
    (before : Interleaving TaskState taskProtocol) :
    Turn TaskCall TaskInput → Prop
  | .invoke _ _ => True
  | .resume pid input =>
      ∀ runHandle phase op,
        before.view.progress pid = some ⟨.executor runHandle, phase⟩ →
        before.Awaits pid op →
        TaskView.FinishesLast config before.view runHandle phase op input

namespace TaskView

/-- The runs are numbered, and those that end their task are the last ones. -/
structure LastRuns (view : TaskView) : Prop where
  registering : view.Registering
  onCourse : view.OnCourse
  tends : view.Tends
  executes :
    ∀ pid runHandle phase,
      view.progress pid = some ⟨.executor runHandle, phase⟩ →
      phase.executes = true
  queued :
    ∀ runHandle ∈ view.shared.queue, view.shared.tables.Numbers runHandle
  carried :
    ∀ pid runHandle stage,
      view.Carries pid runHandle stage →
      view.shared.tables.Numbers runHandle
  times :
    ∀ pid runHandle phase times,
      view.progress pid = some ⟨.executor runHandle, phase⟩ →
      phase.runTimes = some times →
      view.shared.tables.HasTimes runHandle.taskId times
  /-- A run that is not over is in flight, or its executor will sweep it. -/
  held :
    ∀ run ∈ view.shared.tables.taskRuns.rows,
      run.status.isFinal = false →
      ∃ runHandle,
        runHandle.runId = run.id ∧
          runHandle.taskId = run.taskId ∧
            (view.InFlight runHandle ∨ view.Abandoned runHandle)
  last :
    ∀ pid runHandle phase,
      view.progress pid = some ⟨.executor runHandle, phase⟩ →
      phase.Ends runHandle →
      view.shared.tables.ReachesLimit runHandle ∧
        view.shared.tables.OthersFinal runHandle ∧
          view.Alone runHandle

variable {config : TaskServerConfig}
variable {view : TaskView}
variable {pid : Nat}
variable {call : TaskCall}
variable {phase : TaskPhase}
variable {op : TaskOp}
variable {input : TaskInput}
variable {answer : Except AppError op.Result}
variable {shared : TaskState}
variable {runHandle : TaskRunHandle}

/-- A run stays numbered whatever a call awaits. -/
theorem Registering.numbers
    (registering : view.Registering)
    (inPhase : view.InPhase pid phase)
    (permitted : phase.permits call op)
    (answered : taskHost config op input view.shared = some (answer, shared))
    (numbers : view.shared.tables.Numbers runHandle) :
    shared.tables.Numbers runHandle := by
  have keeps := registering.keepsTimes inPhase permitted answered
  refine ⟨Nat.lt_of_lt_of_le numbers.1 keeps.nextId_le, fun has => ?_⟩
  have numbered := numbers.2 (keeps.has numbers.1 has)
  by_cases inserts :
      ∃ rank status, op = .insertRun runHandle.taskId rank status
  · obtain ⟨rank, status, rfl⟩ := inserts
    rcases TaskState.attempt_eq answered with
        ⟨_, _, inserted, _, rfl⟩ | ⟨_, _, _, rfl⟩
    · rw [TaskTables.ranksOf_insertRun inserted, if_pos rfl]
      exact List.mem_append_left _ numbered
    · exact numbered
  · rw [ranksOf_of_answered answered
      (fun rank status isOp => inserts ⟨rank, status, isOp⟩) has]
    exact numbered

/-- A run that has just been registered is numbered. -/
theorem numbers_created
    {taskId : Nat}
    {rank : RunRank}
    {taskRun : TaskRun}
    (registering : view.Registering)
    (inPhase : view.InPhase pid (.creating taskId rank))
    (answered :
      taskHost config (.insertRun taskId rank .pending) input view.shared =
        some (.ok taskRun, shared)) :
    shared.tables.Numbers
      { taskId, runId := taskRun.id, runRank := taskRun.rank } := by
  have known := (registering.nextRank pid taskId rank inPhase).1
  rcases TaskState.attempt_eq answered with
      ⟨_, _, inserted, resolved, rfl⟩ | ⟨_, _, rejected, _⟩
  · cases resolved
    obtain ⟨_, ofTask, _, _, members⟩ := TaskTables.insertRun_eq inserted
    refine ⟨?_, fun _ => ?_⟩
    · rw [TaskTables.tasks_insertRun inserted]
      exact known
    · refine List.mem_map_of_mem (Table.mem_select.mpr ⟨?_, ?_⟩)
      · exact members.mpr (.inr rfl)
      · exact beq_iff_eq.mpr ofTask
  · cases rejected

/-- Whatever a call carries after a move is numbered. -/
theorem LastRuns.numbers_carried
    {stage : RunStage}
    (lastRuns : view.LastRuns)
    (present : view.progress pid = some ⟨call, phase⟩)
    (permitted : phase.permits call op)
    (answered : taskHost config op input view.shared = some (answer, shared))
    (carried :
      call.carried (phase.advance call op answer) = some (runHandle, stage)) :
    shared.tables.Numbers runHandle := by
  have kept
      (earlier : RunStage)
      (found : call.carried phase = some (runHandle, earlier)) :
      shared.tables.Numbers runHandle :=
    lastRuns.registering.numbers ⟨call, present⟩ permitted answered
      (lastRuns.carried pid runHandle earlier ⟨_, _, present, found⟩)
  rcases TaskCall.carried_cases carried with
      ⟨rfl, _⟩ | ⟨notExecutor, registered, _⟩
  · exact kept phase.stage rfl
  · have keptHandle
        (found : phase.handle? = some runHandle) :
        shared.tables.Numbers runHandle := by
      refine kept .waiting ?_
      cases call with
      | executor other => exact (notExecutor other rfl).elim
      | _ => exact Option.map_eq_some_iff.mpr ⟨_, found, rfl⟩
    have advances := TaskPhase.advances_advance answer permitted
    generalize phase.advance call op answer = next at advances registered
    cases advances with
    | failed fails =>
        cases fails with
        | same => exact keptHandle registered
        | _ => cases registered
    | created =>
        cases registered
        exact numbers_created lastRuns.registering ⟨call, present⟩ answered
    | unlocked => exact keptHandle registered
    | present | dispatched => cases call <;> cases registered
    | _ => cases registered

/-- The executor of a run that is not over has it in flight, or will sweep it. -/
theorem OnCourse.held
    {run : TaskRun}
    (onCourse : view.OnCourse)
    (present : view.progress pid = some ⟨.executor runHandle, phase⟩)
    (member : run ∈ view.shared.tables.taskRuns.rows)
    (isRun : run.id = runHandle.runId)
    (isOpen : run.status.isFinal = false) :
    view.InFlight runHandle ∨ view.Abandoned runHandle := by
  have allowed := (onCourse.executed pid runHandle phase present).2 run member isRun
  cases course : phase.course with
  | unstarted => exact .inl (.inr ⟨pid, phase, present, .inl course⟩)
  | running => exact .inl (.inr ⟨pid, phase, present, .inr course⟩)
  | abandoned =>
      rw [course] at allowed
      refine .inr ⟨pid, phase, present, course, run, member, isRun, ?_⟩
      by_contra notPending
      have isFinal := allowed.over_of_abandoned notPending
      rw [show run.status.isFinal = true from isFinal] at isOpen
      cases isOpen
  | concluded =>
      rw [course] at allowed
      rw [show run.status.isFinal = true from allowed] at isOpen
      cases isOpen

/-- Whatever is answered, a run that is not over is in flight or will be swept. -/
theorem LastRuns.held_answered
    {run : TaskRun}
    (lastRuns : view.LastRuns)
    (onCourse :
      TaskView.OnCourse
        (view.place pid ⟨call, phase.advance call op answer⟩ shared))
    (present : view.progress pid = some ⟨call, phase⟩)
    (permitted : phase.permits call op)
    (answered : taskHost config op input view.shared = some (answer, shared))
    (member : run ∈ shared.tables.taskRuns.rows)
    (isOpen : run.status.isFinal = false) :
    ∃ runHandle,
      runHandle.runId = run.id ∧
        runHandle.taskId = run.taskId ∧
          (TaskView.InFlight
              (view.place pid ⟨call, phase.advance call op answer⟩ shared) runHandle ∨
            TaskView.Abandoned
              (view.place pid ⟨call, phase.advance call op answer⟩ shared) runHandle) := by
  have executed
      {other : Nat}
      {runHandle : TaskRunHandle}
      {otherPhase : TaskPhase}
      (isRun : runHandle.runId = run.id)
      (found : view.progress other = some ⟨.executor runHandle, otherPhase⟩) :
      TaskView.InFlight
          (view.place pid ⟨call, phase.advance call op answer⟩ shared) runHandle ∨
        TaskView.Abandoned
          (view.place pid ⟨call, phase.advance call op answer⟩ shared) runHandle := by
    by_cases isPid : other = pid
    · subst isPid
      rw [present] at found
      cases found
      exact onCourse.held (Function.update_self ..) member isRun.symm isOpen
    · exact onCourse.held ((Function.update_of_ne isPid ..).trans found) member isRun.symm
        isOpen
  cases (runsStep_of_answered answered).origin run member with
  | @kept old oldMember sameId sameTask sameStatus =>
      obtain ⟨runHandle, isRun, ofTask, held⟩ :=
        lastRuns.held old oldMember (sameStatus ▸ isOpen)
      refine ⟨runHandle, isRun.trans sameId, ofTask.trans sameTask, ?_⟩
      rcases held with (waits | ⟨other, otherPhase, found, _⟩) | ⟨other, otherPhase, found, _⟩
      · exact .inl (.inl (unexecuted_kept present permitted answered waits))
      · exact executed (isRun.trans sameId) found
      · exact executed (isRun.trans sameId) found
  | @updated old dto oldMember sameId sameTask isOp status =>
      subst isOp
      obtain ⟨own, rfl, isOwn, _⟩ := TaskPhase.updating_of_permits permitted
      have backs := lastRuns.onCourse.owned.known pid own phase.stage ⟨_, _, present, rfl⟩
      have ofTask := (backs.row old oldMember (sameId.trans isOwn)).1
      exact ⟨own, isOwn.symm, ofTask.symm.trans sameTask, executed isOwn.symm present⟩
  | swept _ _ _ isOp status =>
      subst isOp
      obtain ⟨_, _, isStopped⟩ := TaskPhase.stopping_of_permits permitted
      rw [status, isStopped] at isOpen
      cases isOpen
  | inserted isOp fresh =>
      subst isOp
      have creates := TaskPhase.creating_of_permits permitted
      have isPending := TaskPhase.pending_of_permits permitted
      subst creates
      rw [isPending] at answered ⊢
      have notExecutor : ∀ own, call ≠ .executor own := by
        rintro own rfl
        cases lastRuns.executes pid own _ present
      obtain ⟨runHandle, isRun, ofTask, waits⟩ :=
        unexecuted_created notExecutor answered member fresh
      exact ⟨runHandle, isRun, ofTask, .inl (.inl waits)⟩

/--
A run in flight after an answer has been in flight before, or a callback has
inserted it, whose task is there.
-/
theorem inFlight_of_answered
    (present : view.progress pid = some ⟨call, phase⟩)
    (permitted : phase.permits call op)
    (answered : taskHost config op input view.shared = some (answer, shared))
    (inFlight :
      TaskView.InFlight
        (view.place pid ⟨call, phase.advance call op answer⟩ shared) runHandle) :
    view.InFlight runHandle ∨
      ∃ rank,
        phase = .creating runHandle.taskId rank ∧
          view.shared.tables.Has runHandle.taskId := by
  rcases inFlight with
      (queued | ⟨other, otherCall, otherPhase, found, notExecutor, registered⟩) |
      ⟨other, otherPhase, found, unsettled⟩
  · change runHandle ∈ shared.queue at queued
    rcases queue_of_answered present permitted answered with
        sameQueue | ⟨own, rfl, grown, _⟩
    · exact .inl (.inl (.inl (sameQueue ▸ queued)))
    · rw [grown] at queued
      rcases List.mem_append.mp queued with old | isOwn
      · exact .inl (.inl (.inl old))
      · obtain ⟨rfl, taskId, rfl⟩ := TaskPhase.enqueueing_of_permits permitted
        rw [List.mem_singleton.mp isOwn]
        exact .inl (.inl (.inr ⟨pid, _, _, present, nofun, rfl⟩))
  · rcases Protocol.View.place_cases found with ⟨rfl, shape⟩ | ⟨_, earlier⟩
    · cases shape
      have kept
          (found : phase.handle? = some runHandle) :
          view.InFlight runHandle :=
        .inl (.inr ⟨other, call, phase, present, notExecutor, found⟩)
      have advances := TaskPhase.advances_advance answer permitted
      generalize phase.advance call op answer = next at advances registered
      cases advances with
      | failed fails =>
          cases fails with
          | same => exact .inl (kept registered)
          | _ => cases registered
      | created =>
          cases registered
          refine .inr ⟨_, rfl, ?_⟩
          rcases TaskState.attempt_eq answered with
              ⟨_, tables, inserted, resolved, rfl⟩ | ⟨_, _, rejected, _⟩
          · cases resolved
            obtain ⟨_, ofTask, _, _, members⟩ := TaskTables.insertRun_eq inserted
            obtain ⟨task, member, isTask⟩ := tables.runsOfTasks _ (members.mpr (.inr rfl))
            rw [TaskTables.tasks_insertRun inserted] at member
            exact ⟨task, member, isTask.trans ofTask⟩
          · cases rejected
      | unlocked => exact .inl (kept registered)
      | present | dispatched => cases call <;> cases registered
      | _ => cases registered
    · exact .inl (.inl (.inr ⟨other, otherCall, otherPhase, earlier, notExecutor, registered⟩))
  · rcases Protocol.View.place_cases found with ⟨rfl, shape⟩ | ⟨_, earlier⟩
    · cases shape
      exact .inl (.inr ⟨other, phase, present,
        TaskPhase.unsettled_advance permitted answered unsettled⟩)
    · exact .inl (.inr ⟨other, otherPhase, earlier, unsettled⟩)

/-- After the last run no other run of the task comes in flight. -/
theorem LastRuns.alone_kept
    (lastRuns : view.LastRuns)
    (present : view.progress pid = some ⟨call, phase⟩)
    (permitted : phase.permits call op)
    (answered : taskHost config op input view.shared = some (answer, shared))
    (numbers : view.shared.tables.Numbers runHandle)
    (reaches : view.shared.tables.ReachesLimit runHandle)
    (alone : view.Alone runHandle) :
    TaskView.Alone
      (view.place pid ⟨call, phase.advance call op answer⟩ shared) runHandle := by
  intro other inFlight ofTask
  rcases inFlight_of_answered present permitted answered inFlight with
      before | ⟨rank, rfl, has⟩
  · exact alone other before ofTask
  · -- the last rank has been given, so no run is registered any more
    rw [ofTask] at present has
    have isNext := lastRuns.registering.nextRank pid _ _ ⟨call, present⟩
    exact absurd isNext
      (numbers.not_isNextRank reaches lastRuns.registering.limited has)

/-- When the last run is over and the others are, none of them comes back. -/
theorem LastRuns.othersFinal
    (lastRuns : view.LastRuns)
    (present : view.progress pid = some ⟨call, phase⟩)
    (permitted : phase.permits call op)
    (answered : taskHost config op input view.shared = some (answer, shared))
    (numbers : view.shared.tables.Numbers runHandle)
    (reaches : view.shared.tables.ReachesLimit runHandle)
    (alone : view.Alone runHandle)
    (final : view.shared.tables.OthersFinal runHandle) :
    shared.tables.OthersFinal runHandle := by
  intro run member ofTask isOther
  have wasFinal
      {old : TaskRun}
      (oldMember : old ∈ view.shared.tables.taskRuns.rows)
      (sameId : old.id = run.id)
      (sameTask : old.taskId = run.taskId) :
      old.status.isFinal = true :=
    final old oldMember (sameTask.trans ofTask) (sameId ▸ isOther)
  cases (runsStep_of_answered answered).origin run member with
  | kept oldMember sameId sameTask sameStatus =>
      rw [← sameStatus]
      exact wasFinal oldMember sameId sameTask
  | @updated old dto oldMember sameId sameTask isOp status =>
      subst isOp
      obtain ⟨own, rfl, sameRun, starts | finishes⟩ :=
        TaskPhase.updating_of_permits permitted
      · -- an executor that records a start has its run in flight
        obtain ⟨container, times, rfl, _⟩ := starts
        have backs := lastRuns.onCourse.owned.known pid own _ ⟨_, _, present, rfl⟩
        have ownTask := (backs.row old oldMember (sameId.trans sameRun)).1
        have isOwn :=
          alone own (.inr ⟨pid, _, present, .inl rfl⟩)
            (ownTask.symm.trans (sameTask.trans ofTask))
        exact absurd (sameRun.trans isOwn) isOther
      · obtain ⟨_, _, _, _, succeed | failed⟩ := finishes
        · rw [status, succeed]
          rfl
        · rw [status, failed]
          rfl
  | swept oldMember sameId sameTask isOp status =>
      subst isOp
      obtain ⟨_, _, stopped⟩ := TaskPhase.stopping_of_permits permitted
      rw [status, stopped]
      rfl
  | inserted isOp fresh =>
      -- the last rank has been given, so no run is registered any more
      subst isOp
      have creates := TaskPhase.creating_of_permits permitted
      subst creates
      have isNext :=
        lastRuns.registering.nextRank pid _ _ ⟨call, present⟩
      have has : view.shared.tables.Has runHandle.taskId := by
        have there := shared.tables.runsOfTasks run member
        rw [(taskHost_keeps answered).tasks rfl, ofTask] at there
        exact there
      rw [ofTask] at isNext
      exact absurd isNext
        (numbers.not_isNextRank reaches lastRuns.registering.limited has)

/-- Where nothing else of the task is in flight, its other runs are over. -/
theorem LastRuns.othersFinal_of_last
    (lastRuns : view.LastRuns)
    (last :
      ∀ other,
        view.InFlight other ∨ view.Abandoned other →
        other.taskId = runHandle.taskId →
        other.runId = runHandle.runId) :
    view.shared.tables.OthersFinal runHandle := by
  intro run member ofTask isOther
  by_contra notFinal
  obtain ⟨other, isRun, sameTask, held⟩ :=
    lastRuns.held run member (Bool.eq_false_iff.mpr notFinal)
  exact isOther (isRun.symm.trans (last other held (sameTask.trans ofTask)))

/-- The last run ends its task after all the others, whoever moves. -/
theorem LastRuns.last_answered
    {other : Nat}
    {otherPhase : TaskPhase}
    (lastRuns : view.LastRuns)
    (finishesLast :
      ∀ runHandle,
        call = .executor runHandle → TaskView.FinishesLast config view runHandle phase op input)
    (present : view.progress pid = some ⟨call, phase⟩)
    (permitted : phase.permits call op)
    (answered : taskHost config op input view.shared = some (answer, shared))
    (found :
      (view.place pid ⟨call, phase.advance call op answer⟩ shared).progress
          other =
        some ⟨.executor runHandle, otherPhase⟩)
    (ends : otherPhase.Ends runHandle) :
    shared.tables.ReachesLimit runHandle ∧
      shared.tables.OthersFinal runHandle ∧
        TaskView.Alone
          (view.place pid ⟨call, phase.advance call op answer⟩ shared) runHandle := by
  have keeps :=
    lastRuns.registering.keepsTimes ⟨call, present⟩ permitted answered
  have kept
      {earlier : TaskPhase}
      (wasThere : view.progress other = some ⟨.executor runHandle, earlier⟩)
      (reaches : view.shared.tables.ReachesLimit runHandle)
      (final : view.shared.tables.OthersFinal runHandle)
      (alone : view.Alone runHandle) :
      shared.tables.ReachesLimit runHandle ∧
        shared.tables.OthersFinal runHandle ∧
          TaskView.Alone
            (view.place pid ⟨call, phase.advance call op answer⟩ shared) runHandle := by
    have numbers := lastRuns.carried other runHandle _ ⟨_, _, wasThere, rfl⟩
    exact ⟨reaches.kept keeps,
      lastRuns.othersFinal present permitted answered numbers reaches alone final,
      lastRuns.alone_kept present permitted answered numbers reaches alone⟩
  rcases Protocol.View.place_cases found with ⟨rfl, shape⟩ | ⟨_, earlier⟩
  · cases shape
    rcases TaskPhase.ends_advance permitted ends with
        before | ⟨container, exitCode, limit, rfl, isReached⟩
    · obtain ⟨reaches, final, alone⟩ := lastRuns.last other _ _ present before
      exact kept present reaches final alone
    · have last := (finishesLast runHandle rfl).last _ _ _ rfl isReached
      exact kept present
        ⟨limit, lastRuns.times other _ _ _ present rfl, isReached⟩
        (lastRuns.othersFinal_of_last last)
        fun _ inFlight => last _ (.inl inFlight)
  · obtain ⟨reaches, final, alone⟩ := lastRuns.last other _ _ earlier ends
    exact kept earlier reaches final alone

/-- A move in which an operation is answered. -/
theorem LastRuns.answered
    (lastRuns : view.LastRuns)
    (finishesLast :
      ∀ runHandle,
        call = .executor runHandle →
        TaskView.FinishesLast config view runHandle phase op input)
    (present : view.progress pid = some ⟨call, phase⟩)
    (permitted : phase.permits call op)
    (answered :
      taskHost config op input view.shared = some (answer, shared)) :
    TaskView.LastRuns
      (view.place pid ⟨call, phase.advance call op answer⟩ shared) := by
  have inPhase : view.InPhase pid phase := ⟨call, present⟩
  have keeps := lastRuns.registering.keepsTimes inPhase permitted answered
  have numbered
      {runHandle : TaskRunHandle}
      (numbers : view.shared.tables.Numbers runHandle) :
      shared.tables.Numbers runHandle :=
    lastRuns.registering.numbers inPhase permitted answered numbers
  have onCourse :=
    lastRuns.onCourse.answered (fun own isCall => (finishesLast own isCall).keepsCourse)
      present permitted answered
  constructor
  · exact lastRuns.registering.answer present permitted answered
  · exact onCourse
  · exact lastRuns.tends.answered (fun own isCall => (finishesLast own isCall).inspects)
      present permitted answered
  · intro other runHandle otherPhase found
    rcases Protocol.View.place_cases found with ⟨_, shape⟩ | ⟨_, earlier⟩
    · cases shape
      exact executes_advance (lastRuns.executes pid _ _ present) permitted
    · exact lastRuns.executes other runHandle otherPhase earlier
  · intro runHandle member
    change runHandle ∈ shared.queue at member
    rcases queue_of_answered present permitted answered with
        same | ⟨own, _, grown, carries, _⟩
    · rw [same] at member
      exact numbered (lastRuns.queued runHandle member)
    · rw [grown] at member
      rcases List.mem_append.mp member with old | new
      · exact numbered (lastRuns.queued runHandle old)
      · rw [List.mem_singleton.mp new]
        exact numbered (lastRuns.carried pid own _ carries)
  · intro other runHandle stage carries
    rcases carries.of_place with ⟨_, carried⟩ | ⟨_, earlier⟩
    · exact lastRuns.numbers_carried present permitted answered carried
    · exact numbered (lastRuns.carried other runHandle stage earlier)
  · intro other runHandle otherPhase times found carried
    rcases Protocol.View.place_cases found with ⟨_, shape⟩ | ⟨_, earlier⟩
    · cases shape
      rcases TaskPhase.runTimes_advance permitted answered carried with
          before | now
      · exact (lastRuns.times pid _ _ _ present before).kept keeps
      · exact now
    · exact (lastRuns.times other _ _ _ earlier carried).kept keeps
  · intro run member isOpen
    exact lastRuns.held_answered onCourse present permitted answered member isOpen
  · intro other runHandle otherPhase found ends
    exact lastRuns.last_answered finishesLast present permitted answered found
      ends

/-- What a call that begins finds in flight has been in flight. -/
theorem inFlight_of_begun
    (begun : beginTaskCall config call view.shared = some shared)
    (inFlight :
      TaskView.InFlight (view.place pid ⟨call, taskProtocol.start call⟩ shared)
        runHandle) :
    view.InFlight runHandle := by
  rcases inFlight with unexecuted | ⟨other, otherPhase, found, unsettled⟩
  · exact .inl (unexecuted_of_begun begun unexecuted)
  · rcases Protocol.View.place_cases found with ⟨_, shape⟩ | ⟨_, earlier⟩
    · cases shape
      rcases queue_of_begun begun with ⟨_, carriesNone⟩ | ⟨own, isCall, shape⟩
      · cases carriesNone
      · cases isCall
        refine .inl (.inl ?_)
        rw [shape]
        exact List.mem_cons_self
    · exact .inr ⟨other, otherPhase, earlier, unsettled⟩

/-- A call that begins holds no limit, and its run has been in the queue. -/
theorem LastRuns.begun
    (lastRuns : view.LastRuns)
    (fresh : view.progress pid = none)
    (begun : beginTaskCall config call view.shared = some shared) :
    TaskView.LastRuns
      (view.place pid ⟨call, taskProtocol.start call⟩ shared) := by
  have sameTables := (beginTaskCall_keeps begun).1
  have onCourse : TaskView.OnCourse (view.place pid ⟨call, taskProtocol.start call⟩ shared) :=
    lastRuns.onCourse.begun begun
  constructor
  · exact lastRuns.registering.begin begun
  · exact onCourse
  · exact lastRuns.tends.begun fresh begun
  · intro other runHandle phase found
    rcases Protocol.View.place_cases found with ⟨_, shape⟩ | ⟨_, earlier⟩
    · cases shape
      rfl
    · exact lastRuns.executes other runHandle phase earlier
  · intro runHandle member
    change shared.tables.Numbers runHandle
    rw [sameTables]
    exact lastRuns.queued runHandle (mem_queue_of_begun begun member)
  · intro other runHandle stage carries
    change shared.tables.Numbers runHandle
    rw [sameTables]
    rcases carries.of_begun begun with earlier | ⟨_, _, shape⟩
    · exact lastRuns.carried other runHandle stage earlier
    · exact lastRuns.queued runHandle (shape ▸ List.mem_cons_self)
  · intro other runHandle phase times found carried
    change shared.tables.HasTimes runHandle.taskId times
    rw [sameTables]
    rcases Protocol.View.place_cases found with ⟨_, shape⟩ | ⟨_, earlier⟩
    · cases shape
      cases carried
    · exact lastRuns.times other runHandle phase times earlier carried
  · intro run member isOpen
    change run ∈ shared.tables.taskRuns.rows at member
    have sameMember := member
    rw [sameTables] at sameMember
    obtain ⟨runHandle, isRun, ofTask, held⟩ := lastRuns.held run sameMember isOpen
    refine ⟨runHandle, isRun, ofTask, ?_⟩
    have executed
        {other : Nat}
        {phase : TaskPhase}
        (found : view.progress other = some ⟨.executor runHandle, phase⟩) := by
      have isOther : other ≠ pid := by
        rintro rfl
        rw [fresh] at found
        cases found
      exact onCourse.held ((Function.update_of_ne isOther ..).trans found) member
        isRun.symm isOpen
    rcases held with (waits | ⟨_, _, found, _⟩) | ⟨_, _, found, _⟩
    · exact .inl ((unexecuted_begun fresh begun waits).imp_right fun begins =>
        ⟨pid, _, begins, .inl rfl⟩)
    · exact executed found
    · exact executed found
  · intro other runHandle phase found ends
    change shared.tables.ReachesLimit runHandle ∧
      shared.tables.OthersFinal runHandle ∧ _
    rw [sameTables]
    rcases Protocol.View.place_cases found with ⟨_, shape⟩ | ⟨_, earlier⟩
    · cases shape
      cases ends
    · obtain ⟨reaches, final, alone⟩ := lastRuns.last other runHandle phase earlier ends
      exact ⟨reaches, final, fun _ inFlight => alone _ (inFlight_of_begun begun inFlight)⟩

/-- Every turn within the condition keeps the last runs last. -/
theorem LastRuns.step
    {before after : Interleaving TaskState taskProtocol}
    {turn : Turn TaskCall TaskInput}
    (lastRuns : TaskView.LastRuns before.view)
    (conforming : before.Conforming)
    (finishesLast : before.FinishesLast config turn)
    (stepped : before.step? (taskServices config) turn = some after) :
    TaskView.LastRuns after.view := by
  cases turn with
  | invoke pid call =>
      have taken :
          Interleaving.Step (taskServices config) (fun _ _ => True) before
            (.invoke pid call) after :=
        ⟨trivial, stepped⟩
      have moves := (taken.moves TaskPhase.conforms_taskBody conforming).1
      generalize after.view = next at moves
      cases moves with
      | invoke fresh begun => exact lastRuns.begun fresh begun
  | resume pid input =>
      obtain ⟨call, phase, op, answer, shared, present, awaits, permitted, answered, same⟩ :=
        conforming.resumes stepped
      rw [same]
      refine lastRuns.answered ?_ present permitted answered
      rintro runHandle rfl
      exact finishesLast runHandle phase op present awaits

theorem LastRuns.initially :
    TaskView.LastRuns (.initial taskProtocol .initial) := by
  have noCall
      {pid : Nat}
      {progress : taskProtocol.Progress}
      (present :
        Protocol.View.progress (.initial taskProtocol TaskState.initial) pid =
          some progress) :
      False := by
    cases present
  constructor
  · exact .initially fun task member => by cases member
  · exact
      { owned := RunsCarried.initially.owned
        unexecuted := by
          rintro runHandle (queued | ⟨_, _, _, present, _⟩)
          · cases queued
          · exact (noCall present).elim
        executed := fun pid runHandle phase present => (noCall present).elim }
  · exact .initially
  · exact fun pid runHandle phase present => (noCall present).elim
  · intro runHandle member
    cases member
  · rintro pid runHandle stage ⟨_, _, present, _⟩
    exact (noCall present).elim
  · exact fun pid runHandle phase times present => (noCall present).elim
  · intro run member
    cases member
  · exact fun pid runHandle phase present => (noCall present).elim

/-- The executor that ends its task finds no container of it running. -/
theorem LastRuns.childrenOf_eq_nil
    (lastRuns : view.LastRuns)
    (present : view.progress pid = some ⟨.executor runHandle, phase⟩)
    (ends : phase.Ends runHandle) :
    view.shared.docker.childrenOf (buildTaskIdentifier runHandle.taskId) = [] := by
  obtain ⟨_, _, alone⟩ := lastRuns.last pid runHandle phase present ends
  unfold Docker.childrenOf
  split
  · rfl
  · rename_i image isImage
    rw [List.map_eq_nil_iff, List.filter_eq_nil_iff]
    intro container member isChild
    obtain ⟨running, sameImage⟩ := (Bool.and_eq_true _ _).mp isChild
    obtain ⟨other, own, otherPhase, found, tends, tags⟩ :=
      lastRuns.tends.tended container member running
    have ofTask : own.taskId = runHandle.taskId :=
      eq_of_buildTaskIdentifier_eq (tags _ image isImage (beq_iff_eq.mp sameImage).symm).symm
    have unsettled : otherPhase.course = .unstarted ∨ otherPhase.course = .running := by
      cases otherPhase <;> first | exact .inl rfl | exact .inr rfl | cases tends
    have isOwn := alone own (.inr ⟨other, otherPhase, found, unsettled⟩) ofTask
    obtain rfl :=
      lastRuns.onCourse.owned.unique other pid own runHandle _ _ ⟨_, _, found, rfl⟩
        ⟨_, _, present, rfl⟩ isOwn
    rw [present] at found
    cases found
    cases phase <;> first | cases tends; done | cases ends

end TaskView

/--
In every interleaving in which no executor gives its run up, and a run whose
rank reaches the limit is the last one of its task in flight when its end is
recorded: from its beginning to its end, the automatic stop of a task finds all
the other runs of the task over, and no container of the task running.
-/
theorem automaticStop_waits
    (config : TaskServerConfig)
    (turns : List (Turn TaskCall TaskInput))
    (final : Interleaving TaskState taskProtocol)
    (run :
      Run
        (Interleaving.StepWhere (taskServices config) (Interleaving.FinishesLast config))
        (.initial taskProtocol .initial) turns final)
    (pid : Nat)
    (runHandle : TaskRunHandle)
    (phase : TaskPhase)
    (present : final.view.progress pid = some ⟨.executor runHandle, phase⟩)
    (stopping : phase.stopsAutomatically = true) :
    final.shared.tables.OthersFinal runHandle ∧
      final.shared.docker.childrenOf (buildTaskIdentifier runHandle.taskId) = [] := by
  obtain ⟨lastRuns, _⟩ :=
    Interleaving.invariant_of_run TaskPhase.conforms_taskBody TaskView.LastRuns
      (fun before turn after conforming finishesLast stepped lastRuns =>
        lastRuns.step conforming finishesLast stepped)
      TaskView.LastRuns.initially run
  have ends : phase.Ends runHandle := by
    cases phase <;> first | exact stopping | cases stopping
  exact ⟨(lastRuns.last pid runHandle phase present ends).2.1,
    lastRuns.childrenOf_eq_nil present ends⟩

/-- A task that may run twice. -/
def twice : TaskConfigDto :=
  { minutely with times := some 2 }

/-- The task is created and built, and two runs are registered. -/
def twoRunsTurns : List (Turn TaskCall TaskInput) :=
  List.flatten
    [.invoke 0 (.createTask 1 1 twice) :: List.replicate 5 (.resume 0 .done),
      .invoke 1 (.build 1 twice) :: List.replicate 2 (.resume 1 .done),
      .invoke 2 (.callback 1) :: List.replicate 6 (.resume 2 .done),
      .invoke 3 (.callback 1) :: List.replicate 6 (.resume 3 .done)]

/-- An executor begins its run in a container. -/
def launchTurns (pid : Nat) (runHandle : TaskRunHandle) (container : String) :
    List (Turn TaskCall TaskInput) :=
  [.invoke pid (.executor runHandle), .resume pid .done,
    .resume pid (.container container), .resume pid .done]

/-- The container terminates, and the executor finishes and removes it. -/
def finishTurns (pid exitPid : Nat) (container : String) :
    List (Turn TaskCall TaskInput) :=
  [.invoke exitPid (.exit container 0), .resume pid .done, .resume pid .done,
    .resume pid .done]

/-- The first run of the first task. -/
def firstRun : TaskRunHandle :=
  { taskId := 1, runId := 1, runRank := .finite 1 }

/-- The second run of the first task. -/
def secondRun : TaskRunHandle :=
  { taskId := 1, runId := 2, runRank := .finite 2 }

/-- No other run of the task is in flight or abandoned, among the calls below a bound. -/
def aloneBelow (bound : Nat) (view : TaskView) (runHandle : TaskRunHandle) : Bool :=
  let isOwn := fun other : TaskRunHandle =>
    other.taskId != runHandle.taskId || other.runId == runHandle.runId
  view.shared.queue.all isOwn &&
    (List.range bound).all fun pid =>
      match view.progress pid with
      | some ⟨.executor other, phase⟩ => isOwn other || phase.course == .concluded
      | some ⟨_, phase⟩ => phase.handle?.all isOwn
      | none => true

/-- A check for executors that nothing rejects, and for last runs that are the last. -/
def finishesLastBelow
    (bound : Nat)
    (config : TaskServerConfig)
    (before : Interleaving TaskState taskProtocol) :
    Turn TaskCall TaskInput → Bool
  | .invoke _ _ => true
  | .resume pid input =>
      match before.processes pid with
      | some ⟨.executor runHandle, phase, .await op _⟩ =>
          let rejects :=
            match taskHost config op input before.shared with
            | some (.error _, _) => true
            | _ => false
          let inspects :=
            match op with
            | .dockerInspectExitCode _ => true
            | _ => false
          let isActive :=
            (before.shared.tables.taskOf runHandle.taskId).any fun task => task.active
          let isLast :=
            match phase with
            | .finishing _ _ (some limit) => runHandle.runRank.reaches limit
            | _ => false
          !rejects && !inspects && isActive &&
            (!isLast || aloneBelow bound before.view runHandle)
      | _ => true

theorem alone_of_below
    {config : Interleaving TaskState taskProtocol}
    {bound : Nat}
    {runHandle other : TaskRunHandle}
    (below : config.Below bound)
    (passed : aloneBelow bound config.view runHandle = true)
    (held : TaskView.InFlight config.view other ∨ TaskView.Abandoned config.view other)
    (ofTask : other.taskId = runHandle.taskId) :
    other.runId = runHandle.runId := by
  obtain ⟨queue, calls⟩ := (Bool.and_eq_true _ _).mp passed
  have executed
      {pid : Nat}
      {phase : TaskPhase}
      (present : config.view.progress pid = some ⟨.executor other, phase⟩)
      (notOver : phase.course ≠ .concluded) :
      other.runId = runHandle.runId := by
    have checked := List.all_eq_true.mp calls pid (below.mem_range present)
    simpa [present, ofTask, notOver] using checked
  rcases held with
      ((queued | ⟨pid, call, phase, present, notExecutor, registered⟩) |
        ⟨pid, phase, present, unsettled⟩) |
      ⟨pid, phase, present, abandoned, _⟩
  · simpa [ofTask] using List.all_eq_true.mp queue other queued
  · have checked := List.all_eq_true.mp calls pid (below.mem_range present)
    cases call with
    | executor own => exact (notExecutor own rfl).elim
    | _ => simpa [present, registered, ofTask] using checked
  · refine executed present ?_
    rcases unsettled with course | course <;> rw [course] <;> decide
  · refine executed present ?_
    rw [abandoned]
    decide

theorem finishesLast_of_below
    {config : TaskServerConfig}
    {bound : Nat}
    (before : Interleaving TaskState taskProtocol)
    (below : before.Below bound)
    (turn : Turn TaskCall TaskInput)
    (passed : finishesLastBelow bound config before turn = true) :
    before.FinishesLast config turn := by
  cases turn with
  | invoke pid call => trivial
  | resume pid input =>
      rintro runHandle phase op present ⟨process, resume, found, awaiting⟩
      obtain ⟨call, ownPhase, residual⟩ := process
      obtain ⟨rfl, rfl⟩ : call = .executor runHandle ∧ ownPhase = phase := by
        simpa [Interleaving.view, found] using present
      change residual = _ at awaiting
      subst awaiting
      simp only [finishesLastBelow, found, Bool.and_eq_true, Bool.or_eq_true,
        Bool.not_eq_true'] at passed
      obtain ⟨⟨⟨resolves, inspectsNone⟩, active⟩, isLast⟩ := passed
      have notRejected : ¬op.Rejects config (.inl input) before.shared := by
        rintro ⟨reason, after, rejected⟩
        change taskHost config op input before.shared = _ at rejected
        rw [rejected] at resolves
        cases resolves
      have isActive : before.shared.tables.IsActive runHandle.taskId := by
        obtain ⟨task, isTask, isActive⟩ := (Option.any_eq_true ..).mp active
        obtain ⟨member, sameId⟩ := Table.mem_of_first isTask
        exact ⟨task, member, beq_iff_eq.mp sameId, isActive⟩
      constructor
      · rintro container exitCode limit rfl reaches other held
        rcases isLast with notLast | alone
        · simp [reaches] at notLast
        · exact alone_of_below below alone held
      · exact fun run _ _ =>
          ⟨fun _ _ => .inr isActive, fun _ _ => notRejected, fun _ _ => isActive,
            fun _ _ => notRejected⟩
      · rintro name rfl
        cases inspectsNone

/-- The second run begins while the first one executes, and finishes later. -/
def overlappingTurns : List (Turn TaskCall TaskInput) :=
  twoRunsTurns ++ launchTurns 4 firstRun "first" ++ launchTurns 5 secondRun "second" ++
    finishTurns 4 6 "first" ++ finishTurns 5 7 "second"

/-- Then the second executor is about to stop the task, and nothing is running. -/
theorem automaticStop_waits_overlapping :
    ∃ final,
      Run
          (Interleaving.StepWhere (taskServices lenientServer)
            (Interleaving.FinishesLast lenientServer))
          (.initial taskProtocol .initial) overlappingTurns final ∧
        final.view.InPhase 5 .autoUnscheduling ∧
        final.shared.tables.taskRuns.rows.map TaskRun.status = [.succeed, .succeed] ∧
        final.shared.tables.OthersFinal secondRun ∧
        final.shared.docker.childrenOf (buildTaskIdentifier 1) = [] := by
  have run
      (final : Interleaving TaskState taskProtocol)
      (executed :
        overlappingTurns.foldlM
            (fun config turn =>
              if finishesLastBelow 8 lenientServer config turn then
                config.step? (taskServices lenientServer) turn
              else
                none)
            (.initial taskProtocol .initial) =
          some final) :=
    Interleaving.runWhere_of_foldlM_below finishesLast_of_below (fun _ _ => rfl) (by decide)
      executed
  exact ⟨_, run _ rfl, ⟨_, rfl⟩, rfl,
    automaticStop_waits _ _ _ (run _ rfl) 5 _ _ rfl rfl⟩

/--
The second run finishes while the first one still executes; then its executor
stops the task, and the container of the first run is among its children.
-/
theorem automaticStop_overtakes :
    ∃ final,
      Run (Interleaving.Step (taskServices lenientServer) fun _ _ => True)
          (.initial taskProtocol .initial)
          (twoRunsTurns ++ launchTurns 4 firstRun "first" ++
            launchTurns 5 secondRun "second" ++ finishTurns 5 6 "second")
          final ∧
        final.view.progress 5 =
          some ⟨.executor secondRun, .autoUnscheduling⟩ ∧
        final.shared.docker.childrenOf (buildTaskIdentifier 1) = ["first"] ∧
        ¬ final.shared.tables.OthersFinal secondRun := by
  refine ⟨_, Interleaving.run_of_foldlM rfl, rfl, rfl, ?_⟩
  intro final
  have isFinal := final _ List.mem_cons_self rfl (by decide)
  cases isFinal

end Prescott
