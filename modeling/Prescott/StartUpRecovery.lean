import Prescott.RecoveredRuns

namespace Prescott

/-!
# The start-up recovers the runs

Each move of a starting process keeps the start-up on its way: the calls move
the runs that have been enqueued, and an answer to the start-up goes on with the
next task or enqueues the next run.
-/

namespace TaskView

variable {config : TaskServerConfig}
variable {view : TaskView}
variable {startUp : StartUpPhase}
variable {pid : Nat}
variable {call : TaskCall}
variable {phase : TaskPhase}
variable {op : TaskOp}
variable {input : TaskInput}
variable {answer : Except AppError op.Result}
variable {shared : TaskState}
variable {runHandle : TaskRunHandle}

/-- The call that moves is at work on none of the runs that are enqueued next. -/
theorem Recovering.notOwn_of_listed
    (recovering : view.Recovering startUp)
    (present : view.progress pid = some ⟨call, phase⟩)
    (isListed : runHandle ∈ startUp.listed)
    (own : TaskRunHandle)
    (isCall : call = .executor own) :
    own.runId ≠ runHandle.runId := by
  subst isCall
  exact recovering.notCarried runHandle isListed pid own phase.stage ⟨_, _, present, rfl⟩

/-- What the start-up enqueues next keeps its pending row. -/
theorem Recovering.listed_answered
    (recovering : view.Recovering startUp)
    (sweepsOwn : view.SweepsOwn call op)
    (present : view.progress pid = some ⟨call, phase⟩)
    (permitted : phase.permits call op)
    (answered : taskHost config op input view.shared = some (answer, shared))
    (isListed : runHandle ∈ startUp.listed) :
    shared.tables.Backs runHandle .launching := by
  have backs := recovering.listed runHandle isListed
  refine ⟨(backs.ended answered).known, fun run member isRun => ?_⟩
  obtain ⟨old, oldMember, isOld, _, sameStatus⟩ := backs.earlier answered member isRun
  have leaves :=
    leavesRun_of_notOwn sweepsOwn permitted (recovering.notOwn_of_listed present isListed)
  exact ⟨((backs.ended answered).row run member isRun).1,
    (sameStatus leaves).symm.trans (backs.row old oldMember isOld).2⟩

/-- A run that waits is pending, whatever is answered. -/
theorem Recovering.waiting_answered
    (recovering : view.Recovering startUp)
    (sweepsOwn : view.SweepsOwn call op)
    (present : view.progress pid = some ⟨call, phase⟩)
    (permitted : phase.permits call op)
    (answered : taskHost config op input view.shared = some (answer, shared))
    (unexecuted :
      TaskView.Unexecuted
        (view.place pid ⟨call, phase.advance call op answer⟩ shared) runHandle)
    {run : TaskRun}
    (member : run ∈ shared.tables.taskRuns.rows)
    (isRun : run.id = runHandle.runId) :
    run.status = .pending := by
  have resolves :
      (taskHost config).failing TaskOp.mayReject op (.inl input) view.shared =
        some (answer, shared) :=
    answered
  rcases unexecuted_of_answered present permitted resolves unexecuted with
      earlier | ⟨isNew, _⟩
  · obtain ⟨backs, notOwn⟩ := recovering.owned.known_unexecuted earlier
    obtain ⟨old, oldMember, isOld, _, sameStatus⟩ := backs.earlier answered member isRun
    have leaves : view.shared.tables.LeavesRun op runHandle.runId :=
      leavesRun_of_notOwn sweepsOwn permitted fun own isCall =>
        notOwn pid own phase (isCall ▸ present)
    exact (sameStatus leaves).symm.trans
      (recovering.waiting runHandle earlier old oldMember isOld)
  · -- no row had the identifier of a new run
    have noOld
        {old : TaskRun}
        (oldMember : old ∈ view.shared.tables.taskRuns.rows)
        (sameId : old.id = run.id) :
        False :=
      absurd (sameId.trans (isRun.trans isNew))
        (Nat.ne_of_lt (view.shared.tables.taskRuns.keysBelow old oldMember))
    cases (runsStep_of_answered answered).origin run member with
    | kept oldMember sameId _ _ | updated oldMember sameId _ _ _
    | swept oldMember sameId _ _ _ => exact (noOld oldMember sameId).elim
    | inserted isOp _ =>
        subst isOp
        exact TaskPhase.pending_of_permits permitted

/-- Whatever is answered, a run that is not over is on its way to an executor. -/
theorem Recovering.kept_answered
    (recovering : view.Recovering startUp)
    (does : call.Does op)
    (present : view.progress pid = some ⟨call, phase⟩)
    (permitted : phase.permits call op)
    (answered : taskHost config op input view.shared = some (answer, shared))
    {run : TaskRun}
    (member : run ∈ shared.tables.taskRuns.rows)
    (active : shared.tables.IsActive run.taskId)
    (isOpen : run.status.isFinal = false) :
    TaskView.IsKept (view.place pid ⟨call, phase.advance call op answer⟩ shared) startUp
      run := by
  cases (runsStep_of_answered answered).origin run member with
  | @kept old oldMember sameId sameTask sameStatus =>
      have wasActive : view.shared.tables.IsActive old.taskId := by
        rw [← sameTask] at active
        rcases isActive_of_answered answered active with wasActive | isOp | isNew
        · exact wasActive
        · exact (does.activates _ isOp).elim
        · exact (TaskTables.Backs.taskId_ne oldMember isNew).elim
      cases recovering.kept old oldMember wasActive (sameStatus ▸ isOpen) with
      | waits runHandle isRun unexecuted =>
          exact .waits runHandle (isRun.trans sameId)
            (unexecuted_kept present permitted answered unexecuted)
      | executes other runHandle callPhase isRun found =>
          by_cases isPid : other = pid
          · subst isPid
            rw [present] at found
            cases found
            exact .executes other runHandle _ (isRun.trans sameId) (Function.update_self ..)
          · exact .executes other runHandle callPhase (isRun.trans sameId)
              ((Function.update_of_ne isPid ..).trans found)
      | listed runHandle isRun isListed =>
          exact .listed runHandle (isRun.trans sameId) isListed
      | awaited isPending awaits =>
          exact .awaited (sameStatus.symm.trans isPending) (sameTask ▸ awaits)
  | updated _ _ _ isOp _ =>
      subst isOp
      obtain ⟨own, rfl, isOwn, _⟩ := TaskPhase.updating_of_permits permitted
      exact .executes pid own _ isOwn.symm (Function.update_self ..)
  | swept _ _ _ isOp status =>
      subst isOp
      obtain ⟨_, _, isStopped⟩ := TaskPhase.stopping_of_permits permitted
      rw [status, isStopped] at isOpen
      cases isOpen
  | inserted isOp fresh =>
      subst isOp
      have creates := TaskPhase.creating_of_permits permitted
      have isPending := TaskPhase.pending_of_permits permitted
      subst creates
      rw [isPending] at answered ⊢
      have notExecutor : ∀ own, call ≠ .executor own := by
        rintro own rfl
        cases (recovering.serves pid _ _ present).1
      obtain ⟨runHandle, isRun, _, waits⟩ :=
        unexecuted_created notExecutor answered member fresh
      exact .waits runHandle isRun waits

/-- What is enqueued next is in the hands of no call after an answer. -/
theorem Recovering.notCarried_answered
    (recovering : view.Recovering startUp)
    (present : view.progress pid = some ⟨call, phase⟩)
    (permitted : phase.permits call op)
    (answered : taskHost config op input view.shared = some (answer, shared))
    (isListed : runHandle ∈ startUp.listed)
    {other : Nat}
    {otherHandle : TaskRunHandle}
    {stage : RunStage}
    (carries :
      TaskView.Carries (view.place pid ⟨call, phase.advance call op answer⟩ shared) other
        otherHandle stage) :
    otherHandle.runId ≠ runHandle.runId := by
  have resolves :
      (taskHost config).failing TaskOp.mayReject op (.inl input) view.shared =
        some (answer, shared) :=
    answered
  rcases carries.of_place with ⟨rfl, carried⟩ | ⟨_, earlier⟩
  · rcases carried_of_advance present permitted resolves carried with
        ⟨earlierStage, earlier⟩ | ⟨isNew, _⟩
    · exact recovering.notCarried runHandle isListed other _ earlierStage earlier
    · exact ne_of_known isNew (recovering.listed runHandle isListed)
  · exact recovering.notCarried runHandle isListed other _ stage earlier

/-- A move in which an operation of a call is answered. -/
theorem Recovering.answered
    (recovering : view.Recovering startUp)
    (sweepsOwn : view.SweepsOwn call op)
    (present : view.progress pid = some ⟨call, phase⟩)
    (permitted : phase.permits call op)
    (answered : taskHost config op input view.shared = some (answer, shared)) :
    TaskView.Recovering startUp
      (view.place pid ⟨call, phase.advance call op answer⟩ shared) := by
  have resolves :
      (taskHost config).failing TaskOp.mayReject op (.inl input) view.shared =
        some (answer, shared) :=
    answered
  have serves := recovering.serves pid call phase present
  have does := serves.does permitted
  exact
    { owned := recovering.owned.answered present permitted resolves
      serves := by
        intro other otherCall otherPhase found
        rcases Protocol.View.place_cases found with ⟨_, shape⟩ | ⟨_, earlier⟩
        · cases shape
          exact serves.advance permitted answer
        · exact recovering.serves other otherCall otherPhase earlier
      waiting := fun runHandle unexecuted run member isRun =>
        recovering.waiting_answered sweepsOwn present permitted answered unexecuted member
          isRun
      executed := by
        intro other runHandle otherPhase found
        rcases Protocol.View.place_cases found with ⟨rfl, shape⟩ | ⟨different, earlier⟩
        · cases shape
          exact fits_moved serves (recovering.executed other _ _ present)
            (recovering.owned.known other _ _ ⟨_, _, present, rfl⟩) does.activates permitted
            answered
        · have carries : view.Carries other runHandle otherPhase.stage :=
            ⟨_, _, earlier, rfl⟩
          have backs := recovering.owned.known _ _ _ carries
          have fits := recovering.executed other _ _ earlier
          intro run member isRun
          obtain ⟨old, oldMember, isOld, _⟩ := backs.earlier answered member isRun
          refine ⟨backs.fits answered does.activates (fun _ => ?_)
            (fun old oldMember isOld => (fits old oldMember isOld).1) member isRun,
            fun deactivated => backs.inactive answered does.activates member isRun
              ((fits old oldMember isOld).2 deactivated)⟩
          refine leavesRun_of_notOwn sweepsOwn permitted ?_
          rintro own rfl same
          exact different (recovering.owned.unique other pid runHandle own otherPhase.stage
            phase.stage carries ⟨_, _, present, rfl⟩ same.symm)
      listed := fun runHandle isListed =>
        recovering.listed_answered sweepsOwn present permitted answered isListed
      listedNodup := recovering.listedNodup
      notQueued := by
        intro runHandle isListed queued
        change runHandle.runId ∈ shared.queue.map TaskRunHandle.runId at queued
        rcases queue_of_answered present permitted answered with
            sameQueue | ⟨own, _, grown, carries, _⟩
        · rw [sameQueue] at queued
          exact recovering.notQueued runHandle isListed queued
        · rw [grown, List.map_append, List.mem_append, List.map_singleton,
            List.mem_singleton] at queued
          rcases queued with old | isOwn
          · exact recovering.notQueued runHandle isListed old
          · exact recovering.notCarried runHandle isListed pid own _ carries isOwn.symm
      notCarried := fun runHandle isListed other otherHandle stage carries =>
        recovering.notCarried_answered present permitted answered isListed carries
      ofTask := recovering.ofTask
      nodup := recovering.nodup
      untouched := fun taskId awaits =>
        (recovering.untouched taskId awaits).answered serves present permitted answered
      kept := fun run member active isOpen =>
        recovering.kept_answered does present permitted answered member active isOpen }

/-- A call that begins changes no row; an executor begins a run that has waited. -/
theorem Recovering.begun
    (recovering : view.Recovering startUp)
    (fresh : view.progress pid = none)
    (notRequest : call.isClientRequest = false)
    (begun : beginTaskCall config call view.shared = some shared) :
    TaskView.Recovering startUp
      (view.place pid ⟨call, taskProtocol.start call⟩ shared) := by
  have sameTables := (beginTaskCall_keeps begun).1
  exact
    { owned := recovering.owned.begun begun
      serves := by
        intro other otherCall otherPhase found
        rcases Protocol.View.place_cases found with ⟨_, shape⟩ | ⟨_, earlier⟩
        · cases shape
          exact TaskCall.serves_start notRequest
        · exact recovering.serves other otherCall otherPhase earlier
      waiting := by
        intro runHandle unexecuted run member
        change run ∈ shared.tables.taskRuns.rows at member
        rw [sameTables] at member
        exact recovering.waiting runHandle (unexecuted_of_begun begun unexecuted) run member
      executed := by
        intro other runHandle otherPhase found
        change otherPhase.Fits shared.tables runHandle
        rw [sameTables]
        rcases Protocol.View.place_cases found with ⟨_, shape⟩ | ⟨_, earlier⟩
        · cases shape
          rcases queue_of_begun begun with ⟨_, carriesNone⟩ | ⟨own, isCall, shape⟩
          · cases carriesNone
          · cases isCall
            refine fun run member isRun =>
              ⟨recovering.waiting runHandle (.inl ?_) run member isRun, nofun⟩
            rw [shape]
            exact List.mem_cons_self
        · exact recovering.executed other runHandle otherPhase earlier
      listed := by
        intro runHandle isListed
        change shared.tables.Backs runHandle .launching
        rw [sameTables]
        exact recovering.listed runHandle isListed
      listedNodup := recovering.listedNodup
      notQueued := by
        intro runHandle isListed queued
        obtain ⟨own, member, same⟩ := List.mem_map.mp queued
        exact recovering.notQueued runHandle isListed
          (List.mem_map.mpr ⟨own, mem_queue_of_begun begun member, same⟩)
      notCarried := by
        intro runHandle isListed other own stage carries same
        rcases carries.of_begun begun with earlier | ⟨_, _, shape⟩
        · exact recovering.notCarried runHandle isListed other own stage earlier same
        · refine recovering.notQueued runHandle isListed (List.mem_map.mpr ⟨own, ?_, same⟩)
          rw [shape]
          exact List.mem_cons_self
      ofTask := recovering.ofTask
      nodup := recovering.nodup
      untouched := fun taskId awaits =>
        (recovering.untouched taskId awaits).begun notRequest begun
      kept := by
        intro run member active isOpen
        change run ∈ shared.tables.taskRuns.rows at member
        change shared.tables.IsActive run.taskId at active
        rw [sameTables] at member active
        cases recovering.kept run member active isOpen with
        | waits runHandle isRun unexecuted =>
            rcases unexecuted_begun fresh begun unexecuted with waits | begins
            · exact .waits runHandle isRun waits
            · exact .executes pid runHandle _ isRun begins
        | executes other runHandle callPhase isRun found =>
            have isOther : other ≠ pid := by
              rintro rfl
              rw [fresh] at found
              cases found
            exact .executes other runHandle callPhase isRun
              ((Function.update_of_ne isOther ..).trans found)
        | listed runHandle isRun isListed => exact .listed runHandle isRun isListed
        | awaited isPending awaits => exact .awaited isPending awaits }

/-- An answer that enqueues nothing leaves every run in its hands. -/
theorem RunsOwned.of_same
    (owned : view.RunsOwned)
    (sameTables : shared.tables = view.shared.tables)
    (sameQueue : shared.queue = view.shared.queue) :
    TaskView.RunsOwned { view with shared } := by
  constructor
  · intro other own stage carries
    change shared.tables.Backs own .ended
    rw [sameTables]
    exact owned.known other own stage carries
  · intro own queued
    change own ∈ shared.queue at queued
    change shared.tables.Backs own .ended
    rw [sameQueue] at queued
    rw [sameTables]
    exact owned.queued own queued
  · exact owned.unique
  · change (shared.queue.map TaskRunHandle.runId).Nodup
    rw [sameQueue]
    exact owned.queueNodup
  · intro other own stage carries
    change own.runId ∉ shared.queue.map TaskRunHandle.runId
    rw [sameQueue]
    exact owned.notQueued other own stage carries

/-- The start-up goes on while nothing is, or is to be, enqueued. -/
theorem Recovering.passes
    {next : StartUpPhase}
    (recovering : view.Recovering startUp)
    (sameTables : shared.tables = view.shared.tables)
    (sameQueue : shared.queue = view.shared.queue)
    (noneListed : startUp.listed = [])
    (noneNext : next.listed = [])
    (nodup : (next.tasks.map Task.id).Nodup)
    (untouched :
      ∀ taskId, next.Awaits taskId → TaskView.Untouched { view with shared } taskId)
    (awaits :
      ∀ taskId,
        view.shared.tables.IsActive taskId → startUp.Awaits taskId → next.Awaits taskId) :
    TaskView.Recovering next { view with shared } := by
  have unexecuted
      {own : TaskRunHandle}
      (waits : TaskView.Unexecuted { view with shared } own) :
      view.Unexecuted own :=
    waits.imp_left fun queued => sameQueue ▸ queued
  exact
    { owned := recovering.owned.of_same sameTables sameQueue
      serves := recovering.serves
      waiting := by
        intro own waits run member
        change run ∈ shared.tables.taskRuns.rows at member
        rw [sameTables] at member
        exact recovering.waiting own (unexecuted waits) run member
      executed := by
        intro other own callPhase found
        change callPhase.Fits shared.tables own
        rw [sameTables]
        exact recovering.executed other own callPhase found
      listed := by rw [noneNext]; nofun
      listedNodup := by rw [noneNext]; exact .nil
      notQueued := by rw [noneNext]; nofun
      notCarried := by rw [noneNext]; nofun
      ofTask := by rw [noneNext]; nofun
      nodup
      untouched
      kept := by
        intro run member active isOpen
        change run ∈ shared.tables.taskRuns.rows at member
        change shared.tables.IsActive run.taskId at active
        rw [sameTables] at member active
        cases recovering.kept run member active isOpen with
        | waits own isRun waits =>
            exact .waits own isRun (waits.imp_left fun queued => sameQueue.symm ▸ queued)
        | executes other own callPhase isRun found =>
            exact .executes other own callPhase isRun found
        | listed own isRun isListed =>
            rw [noneListed] at isListed
            cases isListed
        | awaited isPending isAwaited =>
            exact .awaited isPending (awaits run.taskId active isAwaited) }

/-- The active tasks have been found. -/
theorem Recovering.found
    (recovering : view.Recovering .finding) :
    view.Recovering (.loop view.shared.tables.activeTasks) := by
  refine recovering.passes rfl rfl rfl StartUpPhase.listed_loop ?_ ?_ ?_
  · rw [StartUpPhase.tasks_loop]
    exact TaskTables.nodup_activeTasks
  · exact fun taskId _ => recovering.untouched taskId (.inl rfl)
  · rintro taskId ⟨task, member, isTask, active⟩ _
    exact StartUpPhase.awaits_loop.mpr
      ⟨task, TaskTables.mem_activeTasks.mpr ⟨member, active⟩, isTask⟩

/-- The pending runs of the next task have been found. -/
theorem Recovering.scanned
    {task : Task}
    {rest : List Task}
    (recovering : view.Recovering (.scanning task rest)) :
    view.Recovering
      (.enqueues task rest ((view.shared.tables.pendingRuns task.id).map task.handleOf)) := by
  have untouched : view.Untouched task.id :=
    recovering.untouched task.id (.inr ⟨task, List.mem_cons_self, rfl⟩)
  -- a run in other hands belongs to another task
  have notCarried
      {own : TaskRunHandle}
      {run : TaskRun}
      (backs : view.shared.tables.Backs own .ended)
      (carried : own ∈ view.shared.queue ∨ ∃ pid stage, view.Carries pid own stage)
      (found : run ∈ view.shared.tables.pendingRuns task.id) :
      own.runId ≠ run.id := by
    intro same
    obtain ⟨member, ofTask, _⟩ := TaskTables.mem_pendingRuns.mp found
    exact untouched.not_carried recovering.serves carried
      ((backs.row run member same.symm).1.symm.trans ofTask)
  exact
    { owned := recovering.owned
      serves := recovering.serves
      waiting := recovering.waiting
      executed := recovering.executed
      listed := by
        rw [StartUpPhase.listed_enqueues]
        rintro _ isHandle
        obtain ⟨run, found, rfl⟩ := List.mem_map.mp isHandle
        obtain ⟨member, ofTask, isPending⟩ := TaskTables.mem_pendingRuns.mp found
        refine ⟨view.shared.tables.taskRuns.keysBelow run member, fun other isRow isRun => ?_⟩
        rw [Table.eq_of_key isRow member isRun]
        exact ⟨ofTask, isPending⟩
      listedNodup := by
        rw [StartUpPhase.listed_enqueues, List.map_map]
        exact TaskTables.nodup_pendingRuns
      notQueued := by
        rw [StartUpPhase.listed_enqueues]
        rintro _ isHandle queued
        obtain ⟨run, found, rfl⟩ := List.mem_map.mp isHandle
        obtain ⟨own, isQueued, same⟩ := List.mem_map.mp queued
        exact notCarried (recovering.owned.queued own isQueued) (.inl isQueued) found same
      notCarried := by
        rw [StartUpPhase.listed_enqueues]
        rintro _ isHandle other own stage carries same
        obtain ⟨run, found, rfl⟩ := List.mem_map.mp isHandle
        exact notCarried (recovering.owned.known other own stage carries)
          (.inr ⟨other, stage, carries⟩) found same
      ofTask := by
        rw [StartUpPhase.listed_enqueues, StartUpPhase.tasks_enqueues]
        rintro _ isHandle
        obtain ⟨run, _, rfl⟩ := List.mem_map.mp isHandle
        exact ⟨task, rest, rfl, rfl⟩
      nodup := by
        rw [StartUpPhase.tasks_enqueues]
        exact recovering.nodup
      untouched := by
        intro taskId awaits
        obtain ⟨later, member, isTask⟩ := StartUpPhase.awaits_enqueues.mp awaits
        exact recovering.untouched taskId
          (.inr ⟨later, List.mem_cons_of_mem task member, isTask⟩)
      kept := by
        intro run member active isOpen
        cases recovering.kept run member active isOpen with
        | waits own isRun waits => exact .waits own isRun waits
        | executes other own callPhase isRun found =>
            exact .executes other own callPhase isRun found
        | listed own isRun noneListed => cases noneListed
        | awaited isPending awaits =>
            obtain ⟨other, isOther, isTask⟩ := (StartUpPhase.awaits_iff (by rintro ⟨⟩)).mp awaits
            rcases List.mem_cons.mp isOther with rfl | later
            · refine .listed (other.handleOf run) rfl ?_
              rw [StartUpPhase.listed_enqueues]
              exact List.mem_map_of_mem
                (TaskTables.mem_pendingRuns.mpr ⟨member, isTask.symm, isPending⟩)
            · exact .awaited isPending
                (StartUpPhase.awaits_enqueues.mpr ⟨other, later, isTask⟩) }

/-- A run in no other hands is enqueued. -/
theorem RunsOwned.enqueued
    (owned : view.RunsOwned)
    (backs : view.shared.tables.Backs runHandle .ended)
    (notQueued : runHandle.runId ∉ view.shared.queue.map TaskRunHandle.runId)
    (notCarried :
      ∀ pid other stage, view.Carries pid other stage → other.runId ≠ runHandle.runId) :
    TaskView.RunsOwned
      { view with
        shared := { view.shared with queue := view.shared.queue ++ [runHandle] } } where
  known := owned.known
  queued := by
    intro own queued
    rcases List.mem_append.mp queued with old | isOwn
    · exact owned.queued own old
    · rw [List.mem_singleton.mp isOwn]
      exact backs
  unique := owned.unique
  queueNodup := by
    change ((view.shared.queue ++ [runHandle]).map TaskRunHandle.runId).Nodup
    rw [List.map_append]
    refine owned.queueNodup.append (List.nodup_singleton _) ?_
    rw [List.map_singleton, List.disjoint_singleton]
    exact notQueued
  notQueued := by
    intro other own stage carries queued
    rw [List.map_append, List.mem_append, List.map_singleton, List.mem_singleton] at queued
    rcases queued with old | isOwn
    · exact owned.notQueued other own stage carries old
    · exact notCarried other own stage carries isOwn

/-- A run of another task that is enqueued leaves a task untouched. -/
theorem Untouched.enqueued
    {taskId : Nat}
    (untouched : view.Untouched taskId)
    (isOther : runHandle.taskId ≠ taskId) :
    TaskView.Untouched
      { view with
        shared := { view.shared with queue := view.shared.queue ++ [runHandle] } }
      taskId := by
  refine ⟨?_, untouched.calls, untouched.entry, untouched.overwritten, untouched.builds⟩
  intro own queued
  rcases List.mem_append.mp queued with old | isOwn
  · exact untouched.queue own old
  · rw [List.mem_singleton.mp isOwn]
    exact isOther

/-- The next run has been enqueued. -/
theorem Recovering.enqueued
    {task : Task}
    {rest : List Task}
    {others : List TaskRunHandle}
    (recovering : view.Recovering (.enqueueing task runHandle others rest)) :
    TaskView.Recovering (.enqueues task rest others)
      { view with
        shared := { view.shared with queue := view.shared.queue ++ [runHandle] } } := by
  have isNext : runHandle ∈ StartUpPhase.listed (.enqueueing task runHandle others rest) :=
    List.mem_cons_self
  have isLater
      {own : TaskRunHandle}
      (member : own ∈ others) :
      own ∈ StartUpPhase.listed (.enqueueing task runHandle others rest) :=
    List.mem_cons_of_mem runHandle member
  have backs := recovering.listed runHandle isNext
  obtain ⟨notAmong, othersNodup⟩ := List.nodup_cons.mp recovering.listedNodup
  exact
    { owned :=
        recovering.owned.enqueued backs.owned (recovering.notQueued runHandle isNext)
          (recovering.notCarried runHandle isNext)
      serves := recovering.serves
      waiting := by
        rintro own (queued | waits) run member isRun
        · rcases List.mem_append.mp queued with old | isOwn
          · exact recovering.waiting own (.inl old) run member isRun
          · rw [List.mem_singleton.mp isOwn] at isRun
            exact (backs.row run member isRun).2
        · exact recovering.waiting own (.inr waits) run member isRun
      executed := recovering.executed
      listed := by
        rw [StartUpPhase.listed_enqueues]
        exact fun own member => recovering.listed own (isLater member)
      listedNodup := by
        rw [StartUpPhase.listed_enqueues]
        exact othersNodup
      notQueued := by
        rw [StartUpPhase.listed_enqueues]
        intro own member queued
        rw [List.map_append, List.mem_append, List.map_singleton,
          List.mem_singleton] at queued
        rcases queued with old | isNext
        · exact recovering.notQueued own (isLater member) old
        · exact notAmong (isNext ▸ List.mem_map_of_mem member)
      notCarried := by
        rw [StartUpPhase.listed_enqueues]
        exact fun own member => recovering.notCarried own (isLater member)
      ofTask := by
        rw [StartUpPhase.listed_enqueues, StartUpPhase.tasks_enqueues]
        exact fun own member => recovering.ofTask own (isLater member)
      nodup := by
        rw [StartUpPhase.tasks_enqueues]
        exact recovering.nodup
      untouched := by
        intro taskId awaits
        obtain ⟨later, member, isTask⟩ := StartUpPhase.awaits_enqueues.mp awaits
        refine (recovering.untouched taskId (.inr ⟨later, member, isTask⟩)).enqueued ?_
        rintro rfl
        obtain ⟨_, _, ⟨⟩, ofTask⟩ := recovering.ofTask runHandle isNext
        refine (List.nodup_cons.mp recovering.nodup).1 ?_
        rw [← ofTask, ← isTask]
        exact List.mem_map_of_mem member
      kept := by
        intro run member active isOpen
        cases recovering.kept run member active isOpen with
        | waits own isRun waits =>
            exact .waits own isRun (waits.imp_left (List.mem_append_left _))
        | executes other own callPhase isRun found =>
            exact .executes other own callPhase isRun found
        | listed own isRun among =>
            rcases List.mem_cons.mp among with rfl | later
            · exact .waits own isRun (.inl (List.mem_append_right _ List.mem_cons_self))
            · exact .listed own isRun (StartUpPhase.listed_enqueues.symm ▸ later)
        | awaited isPending awaits =>
            obtain ⟨later, isLater, isTask⟩ := (StartUpPhase.awaits_iff (by rintro ⟨⟩)).mp awaits
            exact .awaited isPending
              (StartUpPhase.awaits_enqueues.mpr ⟨later, isLater, isTask⟩) }

/-- The entry of another task leaves a task untouched. -/
theorem Untouched.scheduled
    {taskId other : Nat}
    {scheduleConfig : String}
    (untouched : view.Untouched taskId)
    (isOther : other ≠ taskId) :
    TaskView.Untouched
      { view with
        shared :=
          { view.shared with
            scheduler := view.shared.scheduler.scheduleTask other scheduleConfig } }
      taskId := by
  refine ⟨untouched.queue, untouched.calls, ?_, ?_, untouched.builds⟩
  · exact (Function.update_of_ne (Ne.symm isOther) ..).trans untouched.entry
  · intro entry member
    simp only [CronScheduler.scheduleTask] at member
    split at member
    · rcases List.mem_cons.mp member with rfl | old
      · exact isOther
      · exact untouched.overwritten entry old
    · exact untouched.overwritten entry member

/-- The build of another task leaves a task untouched. -/
theorem Untouched.dispatched
    {taskId other : Nat}
    {taskConfig : TaskConfigDto}
    (untouched : view.Untouched taskId)
    (isOther : other ≠ taskId) :
    TaskView.Untouched
      { view with
        shared := { view.shared with builds := view.shared.builds ++ [(other, taskConfig)] } }
      taskId := by
  refine ⟨untouched.queue, untouched.calls, untouched.entry, untouched.overwritten, ?_⟩
  intro build member
  rcases List.mem_append.mp member with old | isNew
  · exact untouched.builds build old
  · rw [List.mem_singleton.mp isNew]
    exact isOther

/-- The start-up goes on with the tasks after the one it has registered. -/
theorem Recovering.looped
    {task : Task}
    {rest : List Task}
    (recovering : view.Recovering startUp)
    (sameTables : shared.tables = view.shared.tables)
    (sameQueue : shared.queue = view.shared.queue)
    (noneListed : startUp.listed = [])
    (isPhase : startUp.tasks = task :: rest)
    (isAwaited : ∀ taskId, startUp.Awaits taskId ↔ ∃ later ∈ rest, later.id = taskId)
    (untouched :
      ∀ taskId,
        taskId ≠ task.id →
        view.Untouched taskId →
        TaskView.Untouched { view with shared } taskId) :
    TaskView.Recovering (.loop rest) { view with shared } := by
  have nodup := recovering.nodup
  rw [isPhase] at nodup
  obtain ⟨notLater, restNodup⟩ := List.nodup_cons.mp nodup
  refine recovering.passes sameTables sameQueue noneListed StartUpPhase.listed_loop ?_ ?_ ?_
  · rw [StartUpPhase.tasks_loop]
    exact restNodup
  · intro taskId awaits
    have later := StartUpPhase.awaits_loop.mp awaits
    refine untouched taskId ?_ (recovering.untouched taskId ((isAwaited taskId).mpr later))
    rintro rfl
    obtain ⟨other, member, isTask⟩ := later
    exact notLater (isTask ▸ List.mem_map_of_mem member)
  · exact fun taskId _ awaits => StartUpPhase.awaits_loop.mpr ((isAwaited taskId).mp awaits)

/-- A move in which the start-up gets its next answer. -/
theorem Recovering.registered
    (recovering : view.Recovering startUp)
    (permitted : startUp.permits op)
    (answered : taskHost config op input view.shared = some (answer, shared)) :
    startUp.advance op answer = .settled false ∨
      TaskView.Recovering (startUp.advance op answer) { view with shared } := by
  cases startUp with
  | finding =>
      cases permitted
      cases answered
      exact .inr recovering.found
  | scanning task rest =>
      cases permitted
      cases answered
      exact .inr recovering.scanned
  | enqueueing task runHandle others rest =>
      cases permitted
      cases answered
      exact .inr recovering.enqueued
  | checkingEntry task rest =>
      cases permitted
      cases answered
      refine .inr ?_
      cases view.shared.scheduler.exists? task.id with
      | true =>
          exact recovering.looped rfl rfl rfl rfl (fun _ => StartUpPhase.awaits_iff (by rintro ⟨⟩))
            fun _ _ untouched => untouched
      | false =>
          refine recovering.passes rfl rfl rfl rfl recovering.nodup ?_ ?_
          · intro taskId awaits
            rw [StartUpPhase.awaits_iff (by rintro ⟨⟩)] at awaits
            exact recovering.untouched taskId (.inr awaits)
          · intro taskId _ awaits
            rw [StartUpPhase.awaits_iff (by rintro ⟨⟩)] at awaits
            exact .inr awaits
  | scheduling task rest =>
      cases permitted
      simp only [taskHost] at answered
      split at answered
      · cases answered
        refine .inr (recovering.passes rfl rfl rfl rfl recovering.nodup ?_ ?_)
        · intro taskId awaits
          rw [StartUpPhase.awaits_iff (by rintro ⟨⟩)] at awaits
          obtain ⟨later, member, isTask⟩ := awaits
          refine (recovering.untouched taskId (.inr ⟨later, member, isTask⟩)).scheduled ?_
          rintro rfl
          exact (List.nodup_cons.mp recovering.nodup).1
            (isTask ▸ List.mem_map_of_mem member)
        · intro taskId _ awaits
          rw [StartUpPhase.awaits_iff (by rintro ⟨⟩)] at awaits
          exact .inr awaits
      · cases answered
        exact .inl rfl
  | dispatching task rest =>
      cases permitted
      cases answered
      refine .inr ?_
      exact recovering.looped rfl rfl rfl rfl (fun _ => StartUpPhase.awaits_iff (by rintro ⟨⟩))
        fun _ isOther untouched => untouched.dispatched (Ne.symm isOther)
  | settled resolved => exact permitted.elim

/-- A new process has everything before it. -/
theorem Recovering.initially
    {crashed : TaskState}
    (noneRunning :
      ∀ run ∈ crashed.tables.taskRuns.rows,
        crashed.tables.IsActive run.taskId →
        run.status ≠ .running) :
    TaskView.Recovering .finding (.initial taskProtocol crashed.restarted) := by
  have noCarrier
      (pid : Nat)
      (runHandle : TaskRunHandle)
      (stage : RunStage) :
      ¬TaskView.Carries (.initial taskProtocol crashed.restarted) pid runHandle stage := by
    rintro ⟨_, _, present, _⟩
    cases present
  exact
    { owned :=
        { known := fun pid _ _ carries => (noCarrier pid _ _ carries).elim
          queued := nofun
          unique := fun pid _ _ _ _ _ carries => (noCarrier pid _ _ carries).elim
          queueNodup := .nil
          notQueued := fun pid _ _ carries => (noCarrier pid _ _ carries).elim }
      serves := by rintro _ _ _ ⟨⟩
      waiting := by
        rintro runHandle (queued | ⟨_, _, _, present, _⟩)
        · cases queued
        · cases present
      executed := by rintro _ _ _ ⟨⟩
      listed := by rintro _ ⟨⟩
      listedNodup := .nil
      notQueued := by rintro _ ⟨⟩
      notCarried := by rintro _ ⟨⟩
      ofTask := by rintro _ ⟨⟩
      nodup := .nil
      untouched := by
        intro taskId _
        refine ⟨?_, ?_, rfl, ?_, ?_⟩
        · rintro _ ⟨⟩
        · rintro _ _ _ ⟨⟩
        · rintro _ ⟨⟩
        · rintro _ ⟨⟩
      kept := by
        intro run member active isOpen
        refine .awaited ?_ (.inl rfl)
        have notRunning := noneRunning run member active
        cases status : run.status with
        | pending => rfl
        | running => exact absurd status notRunning
        | succeed | failed | stopped => rw [status] at isOpen; cases isOpen }

/-- A run that waits without being in the queue is in the hands of a callback. -/
theorem Recovering.queued_or_callback
    (recovering : view.Recovering startUp)
    (unexecuted : view.Unexecuted runHandle) :
    runHandle ∈ view.shared.queue ∨
      ∃ pid taskId phase,
        view.progress pid = some ⟨.callback taskId, phase⟩ ∧ phase.handle? = some runHandle := by
  refine unexecuted.imp_right ?_
  rintro ⟨pid, call, phase, present, notExecutor, registered⟩
  have serves := recovering.serves pid call phase present
  cases call with
  | callback taskId => exact ⟨pid, taskId, phase, present, registered⟩
  | executor own => exact (notExecutor own rfl).elim
  | _ => cases phase <;> first | exact serves.elim | cases registered

/-- No run has two executors. -/
theorem RunsOwned.executor_unique
    (owned : view.RunsOwned)
    {run : TaskRun}
    {left right : Nat ⊕ Nat}
    (isLeft : view.HasExecutor run left)
    (isRight : view.HasExecutor run right) :
    left = right := by
  have separate
      {index pid : Nat}
      (queued : view.HasExecutor run (.inl index))
      (carried : view.HasExecutor run (.inr pid)) :
      False := by
    obtain ⟨own, atIndex, ofRun⟩ := queued
    obtain ⟨other, phase, present, alsoOfRun, _⟩ := carried
    exact owned.notQueued pid other _ ⟨_, _, present, rfl⟩
      (List.mem_map.mpr ⟨own, List.mem_of_getElem? atIndex, ofRun.trans alsoOfRun.symm⟩)
  rcases left with left | left <;> rcases right with right | right
  · obtain ⟨own, atLeft, ofRun⟩ := isLeft
    obtain ⟨other, atRight, alsoOfRun⟩ := isRight
    have inRange : left < (view.shared.queue.map TaskRunHandle.runId).length := by
      rw [List.length_map]
      exact (List.getElem?_eq_some_iff.mp atLeft).1
    refine congrArg Sum.inl ((List.getElem?_inj inRange owned.queueNodup).mp ?_)
    rw [List.getElem?_map, List.getElem?_map, atLeft, atRight, Option.map_some,
      Option.map_some, ofRun, alsoOfRun]
  · exact (separate isLeft isRight).elim
  · exact (separate isRight isLeft).elim
  · obtain ⟨own, phase, present, ofRun, _⟩ := isLeft
    obtain ⟨other, otherPhase, otherPresent, alsoOfRun, _⟩ := isRight
    exact congrArg Sum.inr (owned.unique _ _ own other _ _ ⟨_, _, present, rfl⟩
      ⟨_, _, otherPresent, rfl⟩ (ofRun.trans alsoOfRun.symm))

/-- A call that is begun for a run of an active task is its executor until the run is over. -/
theorem Recovering.hasExecutor
    (recovering : view.Recovering startUp)
    (present : view.progress pid = some ⟨.executor runHandle, phase⟩)
    {run : TaskRun}
    (member : run ∈ view.shared.tables.taskRuns.rows)
    (isRun : runHandle.runId = run.id)
    (active : view.shared.tables.IsActive run.taskId)
    (isOpen : run.status.isFinal = false) :
    view.HasExecutor run (.inr pid) := by
  have known := recovering.owned.known pid runHandle _ ⟨_, _, present, rfl⟩
  have ofTask := (known.row run member isRun.symm).1
  have fits := (recovering.executed pid runHandle phase present run member isRun.symm).1
  refine ⟨runHandle, phase, present, isRun, ?_⟩
  cases course : phase.course with
  | unstarted => exact .inl rfl
  | running => exact .inr (.inl rfl)
  | abandoned => exact .inr (.inr ⟨rfl, isOpen⟩)
  | concluded =>
      rw [course] at fits
      rcases fits with isFinal | inactive
      · rw [isFinal] at isOpen
        cases isOpen
      · exact (inactive (ofTask ▸ active)).elim

/-- A run that is over has no executor. -/
theorem Recovering.not_hasExecutor
    (recovering : view.Recovering startUp)
    {run : TaskRun}
    (member : run ∈ view.shared.tables.taskRuns.rows)
    (isFinal : run.status.isFinal = true)
    (executor : Nat ⊕ Nat) :
    ¬view.HasExecutor run executor := by
  rcases executor with index | pid
  · rintro ⟨runHandle, atIndex, ofRun⟩
    have isPending :=
      recovering.waiting runHandle (.inl (List.mem_of_getElem? atIndex)) run member ofRun.symm
    rw [isPending] at isFinal
    cases isFinal
  · rintro ⟨runHandle, phase, present, ofRun, course⟩
    have fits := (recovering.executed pid runHandle phase present run member ofRun.symm).1
    rcases course with course | course | ⟨_, isOpen⟩
    · rw [course] at fits
      rw [show run.status = .pending from fits] at isFinal
      cases isFinal
    · rw [course] at fits
      rw [show run.status = .running from fits] at isFinal
      cases isFinal
    · rw [isFinal] at isOpen
      cases isOpen

/-- When all tasks are registered and no callback holds a run, all runs are provided for. -/
theorem Recovering.recovered
    (recovering : view.Recovering (.settled true))
    (noCallback :
      ∀ pid taskId phase,
        view.progress pid = some ⟨.callback taskId, phase⟩ → phase.handle? = none) :
    view.Recovered := by
  intro run member
  refine ⟨fun active isOpen => ?_, recovering.not_hasExecutor member⟩
  obtain ⟨executor, isExecutor⟩ : ∃ executor, view.HasExecutor run executor := by
    cases recovering.kept run member active isOpen with
    | waits runHandle isRun unexecuted =>
        rcases recovering.queued_or_callback unexecuted with
            queued | ⟨pid, taskId, phase, present, registered⟩
        · obtain ⟨index, atIndex⟩ := List.getElem?_of_mem queued
          exact ⟨.inl index, runHandle, atIndex, isRun⟩
        · rw [noCallback pid taskId phase present] at registered
          cases registered
    | executes pid runHandle phase isRun present =>
        exact ⟨.inr pid, recovering.hasExecutor present member isRun active isOpen⟩
    | listed runHandle isRun noneListed => cases noneListed
    | awaited isPending awaits =>
        obtain ⟨_, noTask, _⟩ := (StartUpPhase.awaits_iff (by rintro ⟨⟩)).mp awaits
        cases noTask
  exact ⟨executor, isExecutor, fun _ isOther =>
    recovering.owned.executor_unique isOther isExecutor⟩

end TaskView

/-- The start-up resolves with its last answer, or when it finds no task. -/
theorem StartUpPhase.last_of_settled
    {phase : StartUpPhase}
    {op : TaskOp}
    {answer : Except AppError op.Result}
    (permitted : phase.permits op)
    (resolved : phase.advance op answer = .settled true) :
    phase = .finding ∨ phase.isLast = true := by
  cases phase with
  | finding => exact .inl rfl
  | settled => exact permitted.elim
  | scanning | scheduling =>
      cases permitted
      rcases answer with _ | _ | _ <;> cases resolved
  | enqueueing _ _ others =>
      cases permitted
      rcases answer with _ | _
      · cases resolved
      · cases others <;> cases resolved
  | checkingEntry _ rest =>
      cases permitted
      rcases answer with _ | _ | _
      · cases resolved
      · cases resolved
      · cases rest with
        | nil => exact .inr rfl
        | cons => cases resolved
  | dispatching _ rest =>
      cases permitted
      rcases answer with _ | _
      · cases resolved
      · cases rest with
        | nil => exact .inr rfl
        | cons => cases resolved

/-- The start-up has failed, or it is on its way. -/
def StartUpPhase.OnItsWay (phase : StartUpPhase) (view : TaskView) : Prop :=
  phase = .settled false ∨ view.Recovering phase

/-- Every turn within the condition keeps the start-up on its way. -/
theorem StartUp.onItsWay_kept
    {config : TaskServerConfig}
    {before : StartUp}
    {turn : StartUpTurn}
    {view : TaskView}
    {phase : StartUpPhase}
    (spares : before.SparesRuns turn)
    (onItsWay : before.registration.phase.OnItsWay before.calls.view)
    (moves : Moves config before turn view phase) :
    phase.OnItsWay view := by
  rcases onItsWay with hasFailed | recovering
  · cases moves with
    | begins | resumes => exact .inl hasFailed
    | registers permitted answered =>
        rw [hasFailed] at permitted
        exact permitted.elim
  · cases moves with
    | begins fresh notRequest begun => exact .inr (recovering.begun fresh notRequest begun)
    | @resumes pid call callPhase op input answer shared present permitted answered =>
        have serves := recovering.serves pid call callPhase present
        refine .inr (recovering.answered (TaskView.sweepsOwn_of_sparesRuns serves ?_ permitted)
          present permitted answered)
        rintro own rfl rfl
        exact spares own present
    | registers permitted answered => exact recovering.registered permitted answered

/--
Whatever state a crash leaves, if no run of an active task is marked as running
in it: in every interleaving of the start-up with the executors, the builds and
the callbacks that the new process begins, in which no executor that stops its
task sweeps other pending runs and no callback holds a run at the last answer,
when `registerFromDatabase` has resolved, every run of an active task that is
not over has one executor, and a run that is over has none.
-/
theorem startUp_recovers
    (config : TaskServerConfig)
    (crashed : TaskState)
    (noneRunning :
      ∀ run ∈ crashed.tables.taskRuns.rows,
        crashed.tables.IsActive run.taskId →
        run.status ≠ .running)
    (turns : List StartUpTurn)
    (input : TaskInput)
    (before final : StartUp)
    (run : Run (StartUp.Step config StartUp.SparesRuns) (.initial crashed) turns before)
    (last : StartUp.Step config StartUp.SparesRuns before (.registers input) final)
    (completed : final.Completed) :
    TaskView.Recovered final.calls.view := by
  obtain ⟨onItsWay, conforming⟩ :=
    StartUp.invariant_of_run StartUpPhase.OnItsWay
      (fun _ _ _ _ spares onItsWay moves => StartUp.onItsWay_kept spares onItsWay moves)
      (StartUp.initial_conforming crashed) (.inr (.initially noneRunning)) run
  obtain ⟨spares, stepped⟩ := last
  obtain ⟨moves, stillConforming⟩ := StartUp.moves_of_step conforming stepped
  have isSettled := completed.phase_eq stillConforming
  have stillOnItsWay := StartUp.onItsWay_kept spares onItsWay moves
  rw [isSettled] at moves stillOnItsWay
  have recovering : TaskView.Recovering (.settled true) final.calls.view :=
    stillOnItsWay.resolve_left nofun
  refine recovering.recovered ?_
  generalize final.calls.view = view at moves
  generalize resolved : StartUpPhase.settled true = phase at moves
  cases moves with
  | registers permitted answered =>
      rcases StartUpPhase.last_of_settled permitted resolved.symm with isFinding | isLast
      · -- nothing has been begun for any task
        have recovering := onItsWay.resolve_left (by rw [isFinding]; nofun)
        intro pid taskId phase present
        exact absurd rfl
          ((recovering.untouched taskId (.inl isFinding)).calls pid (.callback taskId) phase
            present)
      · exact spares isLast

namespace StartUp

/-- Only calls below a bound have begun. -/
def Below (state : StartUp) (bound : Nat) : Prop :=
  state.calls.Below bound

/-- The call that a turn is about is below a bound. -/
def turnBelow (bound : Nat) : StartUpTurn → Bool
  | .calls turn => turn.pid < bound
  | .registers _ => true

/-- A check for the condition, among the calls below a bound. -/
def sparesRunsBelow (bound : Nat) (before : StartUp) : StartUpTurn → Bool
  | .calls (.invoke _ _) => true
  | .calls (.resume pid _) =>
      match before.calls.view.progress pid with
      | some ⟨.executor runHandle, .stopping _ 0⟩ =>
          before.calls.shared.tables.taskRuns.rows.all fun run =>
            run.taskId != runHandle.taskId || run.status != .pending ||
              run.id == runHandle.runId
      | _ => true
  | .registers _ =>
      !before.registration.phase.isLast ||
        (List.range bound).all fun pid =>
          match before.calls.view.progress pid with
          | some ⟨.callback _, phase⟩ => phase.handle?.isNone
          | _ => true

variable {bound : Nat}
variable {before after : StartUp}
variable {turn : StartUpTurn}

theorem sparesRuns_of_below
    (below : before.Below bound)
    (passed : sparesRunsBelow bound before turn = true) :
    before.SparesRuns turn := by
  rcases turn with (_ | ⟨pid, input⟩) | input
  · trivial
  · intro runHandle present run member ofTask isPending
    simp only [sparesRunsBelow, present] at passed
    simpa [ofTask, isPending] using List.all_eq_true.mp passed run member
  · intro isLast pid taskId phase present
    simp only [sparesRunsBelow, isLast, Bool.not_true, Bool.false_or] at passed
    have checked := List.all_eq_true.mp passed pid (Interleaving.Below.mem_range below present)
    simpa [present] using checked

theorem Below.step
    {config : TaskServerConfig}
    (below : before.Below bound)
    (isBelow : turnBelow bound turn = true)
    (stepped : before.step? config turn = some after) :
    after.Below bound := by
  cases turn with
  | calls turn =>
      obtain ⟨calls, taken, rfl⟩ := Option.map_eq_some_iff.mp stepped
      exact Interleaving.Below.step below (of_decide_eq_true isBelow) taken
  | registers input =>
      simp only [step?] at stepped
      split at stepped
      · cases stepped
      · obtain ⟨_, _, rfl⟩ := Option.map_eq_some_iff.mp stepped
        exact below

/-- Turns of calls below a bound that pass the check are a run within the condition. -/
theorem run_of_foldlM_below
    {config : TaskServerConfig}
    {start final : StartUp}
    {turns : List StartUpTurn}
    (startBelow : start.Below bound)
    (executed :
      turns.foldlM
          (fun state turn =>
            if turnBelow bound turn && sparesRunsBelow bound state turn then
              state.step? config turn
            else
              none)
          start =
        some final) :
    Run (Step config SparesRuns) start turns final ∧ final.Below bound := by
  have taken := Run.of_foldlM executed
  clear executed
  induction taken with
  | nil => exact ⟨.nil, startBelow⟩
  | snoc _ stepped inductionHypothesis =>
      obtain ⟨earlier, below⟩ := inductionHypothesis
      split at stepped
      · rename_i passed
        obtain ⟨isBelow, spares⟩ := (Bool.and_eq_true _ _).mp passed
        exact ⟨.snoc earlier ⟨sparesRuns_of_below below spares, stepped⟩,
          below.step isBelow stepped⟩
      · cases stepped

end StartUp

/-- Another task, which is created after the first one. -/
def summary : TaskConfigDto :=
  { minutely with name := "summary" }

/-- Two tasks have been built, and their entries have fired once and twice. -/
def pendingRunsTurns : List (Turn TaskCall TaskInput) :=
  List.flatten
    [.invoke 0 (.createTask 1 1 minutely) :: List.replicate 5 (.resume 0 .done),
      .invoke 1 (.createTask 1 1 summary) :: List.replicate 5 (.resume 1 .done),
      .invoke 2 (.build 1 minutely) :: List.replicate 2 (.resume 2 .done),
      .invoke 3 (.build 2 summary) :: List.replicate 2 (.resume 3 .done),
      .invoke 4 (.callback 1) :: List.replicate 5 (.resume 4 .done),
      .invoke 5 (.callback 2) :: List.replicate 5 (.resume 5 .done),
      .invoke 6 (.callback 2) :: List.replicate 4 (.resume 6 .done)]

/--
The first executor begins during the start-up, cannot launch its container and
stops its task, while the second task is registered and its first run started.
-/
def recoveringTurns : List StartUpTurn :=
  List.flatten
    [List.replicate 3 (.registers .done),
      [.calls (.invoke 0 (.executor ⟨1, 1, .infinity⟩)), .calls (.resume 0 .done),
        .calls (.resume 0 (.refused "no such image")), .calls (.resume 0 .done)],
      List.replicate 3 (.registers .done),
      [.calls (.resume 0 .done), .calls (.resume 0 .done), .registers .done, .registers .done,
        .calls (.resume 0 (.children [])), .calls (.invoke 1 (.executor ⟨2, 2, .infinity⟩)),
        .calls (.resume 0 .done), .calls (.resume 1 .done),
        .calls (.resume 1 (.container "worker")), .calls (.resume 1 .done)],
      List.replicate 3 (.registers .done)]

/-- One run has been stopped, one is running, and one waits in the queue. -/
theorem startUp_recovers_failing :
    ∃ crashed before final,
      Run (Interleaving.Step (taskServices lenientServer) fun _ _ => True)
          (.initial taskProtocol .initial) pendingRunsTurns crashed ∧
        Run (StartUp.Step lenientServer StartUp.SparesRuns) (.initial crashed.shared)
          recoveringTurns before ∧
        StartUp.Step lenientServer StartUp.SparesRuns before (.registers .done) final ∧
        final.Completed ∧
        final.calls.shared.tables.taskRuns.rows.map TaskRun.status =
          [.stopped, .running, .pending] ∧
        TaskView.Recovered final.calls.view := by
  suffices executed :
      ∃ crashed before final,
        pendingRunsTurns.foldlM (Interleaving.step? (taskServices lenientServer))
            (.initial taskProtocol .initial) =
          some crashed ∧
        recoveringTurns.foldlM
            (fun state turn =>
              if StartUp.turnBelow 2 turn && StartUp.sparesRunsBelow 2 state turn then
                state.step? lenientServer turn
              else
                none)
            (.initial crashed.shared) =
          some before ∧
        before.step? lenientServer (.registers .done) = some final ∧
        StartUp.sparesRunsBelow 2 before (.registers .done) = true ∧
        (crashed.shared.tables.taskRuns.rows.all fun run => run.status != .running) = true ∧
        final.Completed ∧
        final.calls.shared.tables.taskRuns.rows.map TaskRun.status =
          [.stopped, .running, .pending] by
    obtain ⟨crashed, before, final, created, reached, stepped, spares, noneRunning, completed,
      statuses⟩ := executed
    obtain ⟨run, below⟩ := StartUp.run_of_foldlM_below (fun _ _ => rfl) reached
    have last : StartUp.Step lenientServer StartUp.SparesRuns before (.registers .done) final :=
      ⟨StartUp.sparesRuns_of_below below spares, stepped⟩
    have notRunning
        (run : TaskRun)
        (member : run ∈ crashed.shared.tables.taskRuns.rows)
        (_ : crashed.shared.tables.IsActive run.taskId) :
        run.status ≠ .running := by
      simpa using List.all_eq_true.mp noneRunning run member
    exact ⟨crashed, before, final, Interleaving.run_of_foldlM created, run, last, completed,
      statuses, startUp_recovers _ _ notRunning _ _ _ _ run last completed⟩
  exact ⟨_, _, _, rfl, rfl, rfl, rfl, rfl, rfl, rfl⟩

/-- The entry fires, and the executor of the run records its start. -/
def startedRunTurns : List (Turn TaskCall TaskInput) :=
  [.invoke 2 (.callback 1), .resume 2 .done, .resume 2 .done, .resume 2 .done,
    .resume 2 .done, .resume 2 .done,
    .invoke 3 (.executor { taskId := 1, runId := 1, runRank := .infinity }),
    .resume 3 .done, .resume 3 (.container "worker"), .resume 3 .done]

/--
The server crashes while an executor waits for its container; the start-up
resolves, and the run is left without an executor.
-/
theorem startUp_losesRunningRun :
    ∃ crashed final,
      Run (Interleaving.Step (taskServices lenientServer) fun _ _ => True)
          (.initial taskProtocol .initial)
          (createTurns ++ buildTurns ++ startedRunTurns) crashed ∧
        Run (StartUp.Step lenientServer fun _ _ => True) (.initial crashed.shared)
          (List.replicate 5 (.registers .done)) final ∧
        final.Completed ∧
        final.calls.shared.tables.taskRuns.rows.map TaskRun.status = [.running] ∧
        ¬TaskView.Recovered final.calls.view := by
  have run
      (crashed final : StartUp)
      (turns : List StartUpTurn)
      (executed :
        turns.foldlM (fun state turn => state.step? lenientServer turn) crashed = some final) :
      Run (StartUp.Step lenientServer fun _ _ => True) crashed turns final :=
    (Run.of_foldlM executed).mono fun _ _ _ stepped => ⟨trivial, stepped⟩
  refine ⟨_, _, Interleaving.run_of_foldlM rfl, run _ _ _ rfl, rfl, rfl, ?_⟩
  intro recovered
  obtain ⟨index | pid, hasExecutor, _⟩ :=
    (recovered _ List.mem_cons_self).1 ⟨_, List.mem_cons_self, rfl, rfl⟩ rfl
  · obtain ⟨_, queued, _⟩ := hasExecutor
    cases queued
  · obtain ⟨_, _, present, _⟩ := hasExecutor
    cases present

end Prescott
