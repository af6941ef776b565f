import Prescott.RunEndings
import Prescott.StopFinality

namespace Prescott

/-!
# After a task has been deleted

`deleteTask` deletes the row last, and no identifier is given twice.  So the
task and its runs stay away in every interleaving, and calls about the task
that come later find nothing to act on.
-/

/-- The identifier has been given, and no row has it any more. -/
structure TaskTables.Gone (tables : TaskTables) (taskId : Nat) : Prop where
  known : taskId < tables.tasks.nextId
  noTask : ∀ task ∈ tables.tasks.rows, task.id ≠ taskId

namespace TaskTables.Gone

variable {config : TaskServerConfig}
variable {mayFail : TaskOp → Bool}
variable {op : TaskOp}
variable {input : TaskInput ⊕ AppError}
variable {before after : TaskState}
variable {answer : Except AppError op.Result}
variable {tables : TaskTables}
variable {taskId : Nat}

/-- With the task its runs have gone. -/
theorem noRun
    (gone : tables.Gone taskId)
    {run : TaskRun}
    (member : run ∈ tables.taskRuns.rows) :
    run.taskId ≠ taskId := by
  obtain ⟨task, taskMember, sameTask⟩ := tables.runsOfTasks run member
  rw [← sameTask]
  exact gone.noTask task taskMember

/-- The task is not found. -/
theorem taskOf_eq_none (gone : tables.Gone taskId) :
    tables.taskOf taskId = none :=
  List.find?_eq_none.mpr fun task member => by
    simpa using gone.noTask task member

/-- The deletion of the row of a task that was known. -/
theorem of_deleted (known : taskId < tables.tasks.nextId) :
    (tables.deleteTask taskId).Gone taskId where
  known := known
  noTask := fun task member => by
    simpa using (Table.mem_rows_deleteWhere.mp member).2

/-- No operation brings the task back. -/
theorem answered
    (gone : before.tables.Gone taskId)
    (answered :
      (taskHost config).failing mayFail op input before = some (answer, after)) :
    after.tables.Gone taskId := by
  rcases Host.of_failing answered with ⟨_, answered⟩ | ⟨_, _, rfl⟩
  · refine ⟨Nat.lt_of_lt_of_le gone.known (TaskPhase.nextId_le_of_answered answered), ?_⟩
    intro task member
    cases op with
    | insertTask data =>
        rcases TaskState.attempt_eq answered with
            ⟨_, _, inserted, _, rfl⟩ | ⟨_, _, _, rfl⟩
        · rcases (TaskTables.mem_insertTask inserted).mp member with old | rfl
          · exact gone.noTask task old
          · exact (Nat.ne_of_lt gone.known).symm
        · exact gone.noTask task member
    | updateTaskConfig id taskConfig =>
        cases answered
        obtain ⟨old, oldMember, rfl⟩ := TaskTables.mem_setConfig.mp member
        split <;> exact gone.noTask old oldMember
    | setTaskActive id value =>
        cases answered
        obtain ⟨old, oldMember, rfl⟩ := TaskTables.mem_setActive.mp member
        split <;> exact gone.noTask old oldMember
    | deleteTaskById id =>
        cases answered
        exact gone.noTask task (Table.mem_rows_deleteWhere.mp member).1
    | _ =>
        rw [(taskHost_keeps answered).tasks rfl] at member
        exact gone.noTask task member
  · exact gone

/-- A statement that looks for the task finds none, or it fails. -/
theorem not_found
    (gone : before.tables.Gone taskId)
    {answer : Except AppError (Option Task)}
    (answered :
      (taskHost config).failing mayFail (.findTaskById taskId) input before =
        some (answer, after)) :
    answer = .ok none ∨ ∃ reason, answer = .error reason := by
  rcases Host.of_failing answered with ⟨_, answered⟩ | ⟨_, rejected, _⟩
  · obtain ⟨rfl, _⟩ := Prod.mk.inj (Option.some.inj answered)
    exact .inl (congrArg Except.ok gone.taskOf_eq_none)
  · exact .inr rejected

end TaskTables.Gone

/-- The call is a request that acts on a task that is there already. -/
def TaskCall.isRequest : TaskCall → Bool
  | .deleteTask _ | .stopTask _ | .startTask _ | .updateTask _ _ => true
  | _ => false

/-- The call is a build that was dispatched for a task. -/
def TaskCall.isBuild : TaskCall → Bool
  | .build _ _ => true
  | _ => false

namespace TaskPhase

/-- The phases of a `deleteTask`, which resolves when the row has gone. -/
def OfDelete (tables : TaskTables) (taskId : Nat) : TaskPhase → Prop
  | .beginning | .settled false => True
  | .unregistering id none | .clearing id none | .flushing id | .deletingRow id =>
      id = taskId ∧ taskId < tables.tasks.nextId
  | .settled true => tables.Gone taskId
  | _ => False

/-- The phases of a call that finds no task. -/
def FindsNothing (call : TaskCall) : TaskPhase → Prop
  | .beginning | .settled false => True
  | .settled true => call.isRequest = false
  | .failing | .leaving => ∃ runHandle, call = .executor runHandle
  | _ => False

variable {config : TaskServerConfig}
variable {mayFail : TaskOp → Bool}
variable {call : TaskCall}
variable {phase : TaskPhase}
variable {op : TaskOp}
variable {input : TaskInput ⊕ AppError}
variable {before after : TaskState}
variable {answer : Except AppError op.Result}
variable {taskId : Nat}

theorem nextId_le_of_failing
    (answered :
      (taskHost config).failing mayFail op input before = some (answer, after)) :
    before.tables.tasks.nextId ≤ after.tables.tasks.nextId := by
  rcases Host.of_failing answered with ⟨_, answered⟩ | ⟨_, _, rfl⟩
  · exact nextId_le_of_answered answered
  · exact Nat.le_refl _

/-- What another call does leaves a `deleteTask` in its phase. -/
theorem OfDelete.kept
    (ofDelete : phase.OfDelete before.tables taskId)
    (answered :
      (taskHost config).failing mayFail op input before = some (answer, after)) :
    phase.OfDelete after.tables taskId := by
  have grows := nextId_le_of_failing answered
  cases phase with
  | unregistering id taskConfig | clearing id taskConfig =>
      cases taskConfig with
      | none => exact ⟨ofDelete.1, Nat.lt_of_lt_of_le ofDelete.2 grows⟩
      | some taskConfig => exact ofDelete
  | flushing | deletingRow => exact ⟨ofDelete.1, Nat.lt_of_lt_of_le ofDelete.2 grows⟩
  | settled resolved =>
      cases resolved with
      | false => trivial
      | true => exact TaskTables.Gone.answered ofDelete answered
  | _ => exact ofDelete

/-- A `deleteTask` goes through its phases. -/
theorem OfDelete.advance
    (ofDelete : phase.OfDelete before.tables taskId)
    (permitted : phase.permits (.deleteTask taskId) op)
    (answered :
      (taskHost config).failing mayFail op input before = some (answer, after)) :
    (phase.advance (.deleteTask taskId) op answer).OfDelete after.tables taskId := by
  have later := ofDelete.kept answered
  cases phase with
  | beginning =>
      cases permitted
      rcases Host.of_failing answered with ⟨_, answered⟩ | ⟨_, ⟨_, rfl⟩, _⟩
      · cases answered
        cases found : before.tables.taskOf taskId with
        | none => trivial
        | some task =>
            change TaskPhase.OfDelete before.tables taskId
              (if task.active then .settled false else .unregistering taskId none)
            obtain ⟨member, sameId⟩ := Table.mem_of_first found
            split
            · trivial
            · refine ⟨rfl, ?_⟩
              rw [← beq_iff_eq.mp sameId]
              exact before.tables.tasks.keysBelow task member
      · trivial
  | unregistering id taskConfig =>
      cases taskConfig with
      | none =>
          cases answer with
          | ok value => exact later
          | error reason => trivial
      | some taskConfig => exact ofDelete.elim
  | clearing id taskConfig =>
      cases taskConfig with
      | none =>
          rcases permitted with rfl | ⟨container, rfl⟩ | rfl
          · cases answer with
            | ok value => exact later
            | error reason => trivial
          · exact later
          · cases answer with
            | ok value => exact later
            | error reason => trivial
      | some taskConfig => exact ofDelete.elim
  | flushing id =>
      rcases permitted with rfl | rfl
      · cases answer with
        | ok value => exact later
        | error reason => trivial
      · cases answer with
        | ok value => exact later
        | error reason => trivial
  | deletingRow id =>
      cases permitted
      obtain ⟨rfl, known⟩ := ofDelete
      cases answer with
      | error reason => trivial
      | ok value =>
          rcases Host.of_failing answered with ⟨_, answered⟩ | ⟨_, ⟨_, rejected⟩, _⟩
          · cases answered
            exact .of_deleted known
          · cases rejected
  | settled resolved => exact permitted.elim
  | _ => exact ofDelete.elim

/-- A call that finds no task only looks for it, and leaves the queue. -/
theorem FindsNothing.permits
    (findsNothing : phase.FindsNothing call)
    (about : call.taskId? = some taskId)
    (notBuild : call.isBuild = false)
    (permitted : phase.permits call op) :
    op = .findTaskById taskId ∨ op = .leaveQueue := by
  cases phase with
  | beginning =>
      cases call with
      | createTask | exit => cases about
      | build => cases notBuild
      | _ =>
          cases about
          cases permitted
          exact .inl rfl
  | failing =>
      obtain ⟨runHandle, isCall, rfl⟩ := permitted
      cases isCall
      cases about
      exact .inl rfl
  | leaving => exact .inr permitted
  | settled resolved => exact permitted.elim
  | _ => exact findsNothing.elim

/-- As long as there is no such task, the call goes on without finding it. -/
theorem FindsNothing.advance
    (findsNothing : phase.FindsNothing call)
    (about : call.taskId? = some taskId)
    (notBuild : call.isBuild = false)
    (gone : before.tables.Gone taskId)
    (permitted : phase.permits call op)
    (answered :
      (taskHost config).failing mayFail op input before = some (answer, after)) :
    (phase.advance call op answer).FindsNothing call := by
  cases phase with
  | beginning =>
      cases call with
      | createTask | exit => cases about
      | build => cases notBuild
      | executor runHandle =>
          cases about
          cases permitted
          rcases gone.not_found answered with rfl | ⟨reason, rfl⟩
          · exact ⟨runHandle, rfl⟩
          · exact ⟨runHandle, rfl⟩
      | callback id =>
          cases about
          cases permitted
          rcases gone.not_found answered with rfl | ⟨reason, rfl⟩
          · exact rfl
          · trivial
      | _ =>
          cases about
          cases permitted
          rcases gone.not_found answered with rfl | ⟨reason, rfl⟩ <;> trivial
  | failing =>
      obtain ⟨runHandle, rfl, rfl⟩ := permitted
      cases about
      rcases gone.not_found answered with rfl | ⟨reason, rfl⟩ <;> exact ⟨runHandle, rfl⟩
  | leaving =>
      obtain ⟨runHandle, rfl⟩ := findsNothing
      cases answer with
      | ok value => exact rfl
      | error reason => trivial
  | settled resolved => exact permitted.elim
  | _ => exact findsNothing.elim

end TaskPhase

namespace TaskView

variable {config : TaskServerConfig}
variable {mayFail : TaskOp → Bool}
variable {before after : TaskView}
variable {turn : Turn TaskCall (TaskInput ⊕ AppError)}
variable {taskId : Nat}

/-- Every `deleteTask` is in one of its phases. -/
def DeletesKnown (view : TaskView) : Prop :=
  ∀ pid taskId phase,
    view.progress pid = some ⟨.deleteTask taskId, phase⟩ →
    phase.OfDelete view.shared.tables taskId

theorem DeletesKnown.step
    (known : before.DeletesKnown)
    (moves :
      Protocol.Moves ((taskServices config).failing mayFail) taskProtocol before turn
        after) :
    after.DeletesKnown := by
  intro other otherId phase found
  cases moves with
  | @invoke pid call shared _ begun =>
      have sameTables := (beginTaskCall_keeps begun).1
      rcases Protocol.View.place_cases found with ⟨_, shape⟩ | ⟨_, earlier⟩
      · cases shape
        trivial
      · change phase.OfDelete shared.tables otherId
        rw [sameTables]
        exact known other otherId phase earlier
  | resume present permitted answered =>
      rcases Protocol.View.place_cases found with ⟨_, shape⟩ | ⟨_, earlier⟩
      · cases shape
        exact (known _ _ _ present).advance permitted answered
      · exact (known other otherId phase earlier).kept answered

/--
The task has gone, and the calls about it of which this says so have come too
late to find it.
-/
structure Deleted (view : TaskView) (taskId : Nat) (late : Nat → Prop) : Prop where
  gone : view.shared.tables.Gone taskId
  lateCalls :
    ∀ pid call phase,
      late pid →
      view.progress pid = some ⟨call, phase⟩ →
      call.taskId? = some taskId →
      call.isBuild = false →
      phase.FindsNothing call

theorem Deleted.step
    {late : Nat → Prop}
    (deleted : before.Deleted taskId late)
    (moves :
      Protocol.Moves ((taskServices config).failing mayFail) taskProtocol before turn
        after) :
    after.Deleted taskId late := by
  cases moves with
  | @invoke pid call shared _ begun =>
      have sameTables := (beginTaskCall_keeps begun).1
      constructor
      · change shared.tables.Gone taskId
        rw [sameTables]
        exact deleted.gone
      · intro other otherCall phase isLate found about notBuild
        rcases Protocol.View.place_cases found with ⟨_, shape⟩ | ⟨_, earlier⟩
        · cases shape
          cases call with
          | exit => cases about
          | _ => trivial
        · exact deleted.lateCalls other otherCall phase isLate earlier about notBuild
  | @resume pid call phase op input answer shared present permitted answered =>
      constructor
      · exact deleted.gone.answered answered
      · intro other otherCall otherPhase isLate found about notBuild
        rcases Protocol.View.place_cases found with ⟨rfl, shape⟩ | ⟨_, earlier⟩
        · obtain ⟨rfl, rfl⟩ := Protocol.Progress.mk.inj shape
          exact (deleted.lateCalls _ _ _ isLate present about notBuild).advance about
            notBuild deleted.gone permitted answered
        · exact deleted.lateCalls other otherCall otherPhase isLate earlier about notBuild

end TaskView

/-- A `deleteTask` of the task has resolved. -/
def Interleaving.HasDeleted
    (config : Interleaving TaskState taskProtocol)
    (pid taskId : Nat) :
    Prop :=
  ∃ process,
    config.processes pid = some process ∧
      process.call = .deleteTask taskId ∧
      process.residual.resolved.isSome = true

/--
In every interleaving of the task calls, whatever calls fail: once a
`deleteTask` has resolved, there is neither a row of the task nor one of its
runs ever again.  A call about the task that begins later, other than a build,
only looks for the task, and no request among them resolves.
-/
theorem deletedTask_final
    {config : TaskServerConfig}
    {mayFail : TaskOp → Bool}
    {leading trailing : List (Turn TaskCall (TaskInput ⊕ AppError))}
    {middle final : Interleaving TaskState taskProtocol}
    (earlier :
      Run (Interleaving.Step ((taskServices config).failing mayFail) fun _ _ => True)
        (.initial taskProtocol .initial) leading middle)
    (later :
      Run (Interleaving.Step ((taskServices config).failing mayFail) fun _ _ => True)
        middle trailing final)
    {pid taskId : Nat}
    (deleted : middle.HasDeleted pid taskId) :
    (∀ task ∈ final.shared.tables.tasks.rows, task.id ≠ taskId) ∧
      (∀ run ∈ final.shared.tables.taskRuns.rows, run.taskId ≠ taskId) ∧
      ∀ other process,
        middle.processes other = none →
        final.processes other = some process →
        process.call.taskId? = some taskId →
        process.call.isBuild = false →
        (process.call.isRequest = true → process.residual.resolved = none) ∧
          ∀ op,
            final.Awaits other op → op = .findTaskById taskId ∨ op = .leaveQueue := by
  have programs := TaskPhase.conforms_taskBody
  obtain ⟨moves, conforming⟩ := Interleaving.moves_of_run programs earlier
  obtain ⟨laterMoves, finalConforming⟩ := conforming.moves_of_run programs later
  have known : TaskView.DeletesKnown middle.view :=
    moves.invariant TaskView.DeletesKnown (fun _ _ _ known taken => known.step taken.2)
      (by rintro pid taskId phase ⟨⟩)
  -- the resolved call has seen its row deleted
  obtain ⟨process, present, isCall, resolved⟩ := deleted
  obtain ⟨value, isValue⟩ := Option.isSome_iff_exists.mp resolved
  have replied : middle.reply pid = some value := by
    simp only [Interleaving.reply, present, Option.bind_some, isValue]
  obtain ⟨call, phase, found, ends⟩ := conforming.finishes replied
  obtain rfl : call = .deleteTask taskId := by
    simp only [Interleaving.view, present, Option.map_some, Option.some.injEq] at found
    rw [← isCall]
    exact (congrArg Protocol.Progress.call found).symm
  have gone : middle.view.shared.tables.Gone taskId := by
    have ofDelete := known pid taskId phase found
    rw [show phase = .settled true from ends] at ofDelete
    exact ofDelete
  have finally_ :
      TaskView.Deleted final.view taskId fun other => middle.processes other = none :=
    laterMoves.invariant
      (TaskView.Deleted · taskId fun other => middle.processes other = none)
      (fun _ _ _ deleted taken => deleted.step taken.2)
      ⟨gone, fun other _ _ isLate found => by
        simp [Interleaving.view, isLate] at found⟩
  refine ⟨finally_.gone.noTask, fun run member => finally_.gone.noRun member, ?_⟩
  intro other process isLate found about notBuild
  have inView : final.view.progress other = some ⟨process.call, process.phase⟩ := by
    simp [Interleaving.view, found]
  have findsNothing := finally_.lateCalls _ _ _ isLate inView about notBuild
  constructor
  · intro isRequest
    by_contra resolves
    obtain ⟨value, isValue⟩ := Option.ne_none_iff_exists'.mp resolves
    have replied : final.reply other = some value := by
      simp only [Interleaving.reply, found, Option.bind_some, isValue]
    obtain ⟨_, phase, inPhase, ends⟩ := finalConforming.finishes replied
    rw [inView] at inPhase
    cases inPhase
    rw [show process.phase = .settled true from ends] at findsNothing
    rw [show process.call.isRequest = false from findsNothing] at isRequest
    cases isRequest
  · intro op awaits
    obtain ⟨_, _, inPhase, permitted⟩ := finalConforming.permits awaits
    rw [inView] at inPhase
    cases inPhase
    exact findsNothing.permits about notBuild permitted

/-- A task is created and built, its entry fires once, and it is stopped and deleted. -/
def deletionTurns : List (Turn TaskCall (TaskInput ⊕ AppError)) :=
  firedTurns ++ [.invoke 3 (.stopTask 1)] ++ answers 3 3 ++
    [.resume 3 (.inl (.children [])), .resume 3 (.inl .done)] ++
    [.invoke 4 (.deleteTask 1)] ++ answers 4 2 ++
    [.resume 4 (.inl (.children []))] ++ answers 4 4

/-- The run that waits in the queue finds no task. -/
def lateTurns : List (Turn TaskCall (TaskInput ⊕ AppError)) :=
  [.invoke 5 (.executor ⟨1, 1, .infinity⟩)] ++ answers 5 1

theorem deletedTask_final_queued :
    ∃ middle final,
      Run (Interleaving.Step ((taskServices lenientServer).failing fun _ => false)
            fun _ _ => True)
          (.initial taskProtocol .initial) deletionTurns middle ∧
        Run (Interleaving.Step ((taskServices lenientServer).failing fun _ => false)
            fun _ _ => True)
          middle lateTurns final ∧
        middle.HasDeleted 4 1 ∧
        ∀ op, final.Awaits 5 op → op = .findTaskById 1 ∨ op = .leaveQueue := by
  obtain ⟨middle, final, earlier, later, deleted, notBegun, process, found, isCall⟩ :
      ∃ middle final,
        Run (Interleaving.Step ((taskServices lenientServer).failing fun _ => false)
              fun _ _ => True)
            (.initial taskProtocol .initial) deletionTurns middle ∧
          Run (Interleaving.Step ((taskServices lenientServer).failing fun _ => false)
              fun _ _ => True)
            middle lateTurns final ∧
          middle.HasDeleted 4 1 ∧ middle.processes 5 = none ∧
          ∃ process,
            final.processes 5 = some process ∧
              process.call = .executor ⟨1, 1, .infinity⟩ :=
    ⟨_, _, Interleaving.run_of_foldlM rfl, Interleaving.run_of_foldlM rfl,
      ⟨_, rfl, rfl, rfl⟩, rfl, _, rfl, rfl⟩
  refine ⟨middle, final, earlier, later, deleted, ?_⟩
  exact
    ((deletedTask_final earlier later deleted).2.2 5 process notBegun found
      (by rw [isCall]; rfl) (by rw [isCall]; rfl)).2

end Prescott
