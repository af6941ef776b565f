import Mathlib.Data.List.Pairwise
import Prescott.RunRegistration

namespace Prescott

/-!
# The ranks of the runs

The rank of a new run is one more than what `isRunAllowed` has counted, and
it counts only for a task with a limit.  All runs of a task without one have
the rank `Infinity`, so sorting by rank says nothing about their order.
-/

namespace TaskTables

/-- An order in which `order by rank` may list some rows. -/
def OrderedByRank (listed rows : List TaskRun) : Prop :=
  listed.Perm rows ∧ listed.Pairwise fun left right => left.rank.le right.rank = true

/-- The ranks number the runs of the task, and both lists show that order. -/
structure RunsNumbered (tables : TaskTables) (taskId : Nat) : Prop where
  ranks : tables.ranksOf taskId = firstRanks (tables.runsOf taskId).length
  listed :
    ∀ listed, OrderedByRank listed (tables.runsOf taskId) →
      listed = tables.runsOf taskId
  listedByStatus :
    ∀ status listed,
      OrderedByRank listed
          ((tables.runsOf taskId).filter fun run => run.status == status) →
        listed = (tables.runsOf taskId).filter fun run => run.status == status

/-- The runs of a task without a limit have no numbers. -/
def RunsUnnumbered (tables : TaskTables) : Prop :=
  ∀ task ∈ tables.tasks.rows,
    task.config.times = none →
    ∀ rank ∈ tables.ranksOf task.id, rank = .infinity

/-- If the task has no limit, the rank is not a number. -/
def IsUnlimitedRank (tables : TaskTables) (taskId : Nat) (rank : RunRank) : Prop :=
  ∀ task ∈ tables.tasks.rows,
    task.id = taskId → task.config.times = none → rank = .infinity

variable {tables before after : TaskTables}
variable {id taskId : Nat}
variable {rank : RunRank}

/-- Rows of different ranks are listed in one order only. -/
theorem OrderedByRank.eq
    {listed rows : List TaskRun}
    (ordered : OrderedByRank listed rows)
    (increasing : rows.Pairwise fun left right =>
      left.rank.le right.rank = true ∧ right.rank.le left.rank = false) :
    listed = rows := by
  have sorted : rows.Pairwise fun left right => left.rank.le right.rank = true :=
    increasing.imp And.left
  have differ : rows.Pairwise fun left right =>
      ¬(left.rank.le right.rank = true ∧ right.rank.le left.rank = true) :=
    increasing.imp fun ⟨_, notBack⟩ ⟨_, back⟩ => by
      rw [notBack] at back
      cases back
  refine List.Perm.eq_of_pairwise ?_ ordered.2 sorted ordered.1
  intro left right inListed inRows le ge
  by_contra different
  have symmetric : Std.Symm fun left right : TaskRun =>
      ¬(left.rank.le right.rank = true ∧ right.rank.le left.rank = true) :=
    ⟨fun _ _ apart both => apart both.symm⟩
  exact differ.forall (ordered.1.subset inListed) inRows different ⟨le, ge⟩

/-- The ranks `1, ..., n` increase. -/
theorem pairwise_of_firstRanks
    {rows : List TaskRun}
    (numbered : rows.map TaskRun.rank = firstRanks rows.length) :
    rows.Pairwise fun left right =>
      left.rank.le right.rank = true ∧ right.rank.le left.rank = false := by
  have ranks : (rows.map TaskRun.rank).Pairwise fun left right =>
      left.le right = true ∧ right.le left = false := by
    rw [numbered, firstRanks, List.pairwise_map]
    refine List.pairwise_lt_range.imp fun less => ?_
    simp only [RunRank.le, decide_eq_true_eq, decide_eq_false_iff_not]
    omega
  exact List.pairwise_map.mp ranks

theorem RunsNumbered.of_firstRanks
    {count : Nat}
    (numbered : tables.ranksOf taskId = firstRanks count) :
    tables.RunsNumbered taskId := by
  have counted : (tables.runsOf taskId).length = count := by
    have sameLength := congrArg List.length numbered
    rwa [ranksOf, List.length_map, length_firstRanks] at sameLength
  have increasing := @pairwise_of_firstRanks (tables.runsOf taskId)
    (by rw [counted]; exact numbered)
  constructor
  · rw [counted]
    exact numbered
  · intro listed ordered
    exact ordered.eq increasing
  · intro status listed ordered
    exact ordered.eq (increasing.filter _)

/-- Where the ranks of the tasks that are there do not change. -/
theorem RunsUnnumbered.kept
    (unnumbered : before.RunsUnnumbered)
    (keeps : KeepsTimes before after)
    (sameRanks :
      ∀ taskId, after.Has taskId →
        after.ranksOf taskId = before.ranksOf taskId) :
    after.RunsUnnumbered := by
  intro task member unlimited
  rw [sameRanks task.id ⟨task, member, rfl⟩]
  rcases Nat.lt_or_ge task.id before.tasks.nextId with known | unknown
  · obtain ⟨earlier, earlierMember, sameId, sameTimes⟩ :=
      keeps.old task member known
    rw [← sameId]
    exact unnumbered earlier earlierMember (sameTimes.trans unlimited)
  · rw [ranksOf_of_nextId_le unknown]
    exact List.forall_mem_nil _

theorem RunsUnnumbered.insertRun
    {status : TaskRunStatus}
    {run : TaskRun}
    (unnumbered : tables.RunsUnnumbered)
    (isUnlimited : tables.IsUnlimitedRank id rank)
    (inserted : tables.insertRun id rank status = .ok (run, after)) :
    after.RunsUnnumbered := by
  intro task member unlimited
  rw [tasks_insertRun inserted] at member
  rw [ranksOf_insertRun inserted]
  split
  · rename_i same
    intro other listed
    rcases List.mem_append.mp listed with old | new
    · exact unnumbered task member unlimited other old
    · rw [List.mem_singleton.mp new]
      exact isUnlimited task member same.symm unlimited
  · exact unnumbered task member unlimited

theorem IsUnlimitedRank.kept
    (isUnlimited : before.IsUnlimitedRank taskId rank)
    (known : taskId < before.tasks.nextId)
    (keeps : KeepsTimes before after) :
    after.IsUnlimitedRank taskId rank := by
  rintro task member rfl unlimited
  obtain ⟨earlier, earlierMember, sameId, sameTimes⟩ := keeps.old task member known
  exact isUnlimited earlier earlierMember sameId (sameTimes.trans unlimited)

end TaskTables

/-- A run that is created next has a number only if its task has a limit. -/
theorem TaskPhase.creating_unlimited
    {config : TaskServerConfig}
    {call : TaskCall}
    {phase : TaskPhase}
    {op : TaskOp}
    {input : TaskInput}
    {before after : TaskState}
    {answer : Except AppError op.Result}
    {taskId : Nat}
    {rank : RunRank}
    (permitted : phase.permits call op)
    (answered : taskHost config op input before = some (answer, after))
    (hasTimes :
      ∀ taskId times,
        phase.timesOf = some (taskId, times) →
        before.tables.HasTimes taskId times)
    (creates : phase.advance call op answer = .creating taskId rank) :
    after.tables.IsUnlimitedRank taskId rank := by
  have advances := advances_advance answer permitted
  generalize phase.advance call op answer = next at advances creates
  cases advances with
  | failed fails =>
      exact (fails.ne_creating creates).elim
  | lockedUnlimited =>
      cases creates
      exact fun _ _ _ _ => rfl
  | counted allowed =>
      cases creates
      cases answered
      intro task member same unlimited
      rw [(hasTimes _ _ rfl).2 task member same] at unlimited
      cases unlimited
  | present | dispatched => cases call <;> cases creates
  | _ => cases creates

namespace TaskView

/-- Registrations number the runs of limited tasks, and no other ones. -/
structure Ranking (view : TaskView) : Prop where
  registering : view.Registering
  unnumbered : view.shared.tables.RunsUnnumbered
  unlimited :
    ∀ pid taskId rank,
      view.InPhase pid (.creating taskId rank) →
      view.shared.tables.IsUnlimitedRank taskId rank

variable {view : TaskView}
variable {pid : Nat}
variable {call : TaskCall}
variable {phase : TaskPhase}
variable {shared : TaskState}

/-- No answer numbers a run of a task without a limit. -/
theorem Ranking.unnumbered_answer
    {config : TaskServerConfig}
    {op : TaskOp}
    {input : TaskInput}
    {answer : Except AppError op.Result}
    (ranking : view.Ranking)
    (inPhase : view.InPhase pid phase)
    (permitted : phase.permits call op)
    (answered : taskHost config op input view.shared = some (answer, shared)) :
    shared.tables.RunsUnnumbered := by
  have keeps := ranking.registering.keepsTimes inPhase permitted answered
  by_cases inserts : ∃ taskId rank status, op = .insertRun taskId rank status
  · obtain ⟨taskId, rank, status, rfl⟩ := inserts
    have creates := TaskPhase.creating_of_permits permitted
    subst creates
    rcases TaskState.attempt_eq answered with
        ⟨_, _, inserted, _, rfl⟩ | ⟨_, _, _, rfl⟩
    · exact ranking.unnumbered.insertRun
        (ranking.unlimited pid taskId rank inPhase) inserted
    · exact ranking.unnumbered
  · refine ranking.unnumbered.kept keeps fun taskId has =>
      ranksOf_of_answered answered ?_ has
    rintro rank status rfl
    exact inserts ⟨taskId, rank, status, rfl⟩

/-- A move of the protocol in which the host answers. -/
theorem Ranking.answer
    {config : TaskServerConfig}
    {op : TaskOp}
    {input : TaskInput}
    {answer : Except AppError op.Result}
    (ranking : view.Ranking)
    (present : view.progress pid = some ⟨call, phase⟩)
    (permitted : phase.permits call op)
    (answered : taskHost config op input view.shared = some (answer, shared)) :
    TaskView.Ranking
      (view.place pid ⟨call, phase.advance call op answer⟩ shared) := by
  have inPhase : view.InPhase pid phase := ⟨call, present⟩
  constructor
  · exact ranking.registering.answer present permitted answered
  · exact ranking.unnumbered_answer inPhase permitted answered
  · intro other taskId rank inOther
    rcases inOther.of_place with ⟨rfl, creates⟩ | ⟨_, earlier⟩
    · exact TaskPhase.creating_unlimited permitted answered
        (fun _ _ carried => ranking.registering.times _ _ _ _ inPhase carried)
        creates.symm
    · exact (ranking.unlimited _ _ _ earlier).kept
        (ranking.registering.nextRank _ _ _ earlier).1
        (ranking.registering.keepsTimes inPhase permitted answered)

/-- Every move keeps what the ranks of the runs rely on. -/
theorem Ranking.step
    {config : TaskServerConfig}
    {before after : TaskView}
    {turn : Turn TaskCall (TaskInput ⊕ AppError)}
    (ranking : before.Ranking)
    (moves :
      Protocol.Moves (failingTaskServices config) taskProtocol before turn
        after) :
    after.Ranking := by
  have registering := ranking.registering.step moves
  cases moves with
  | invoke _ begun =>
      have sameTables := (beginTaskCall_keeps begun).1
      refine ⟨registering, ?_, ?_⟩
      · simpa [Protocol.View.place, sameTables] using ranking.unnumbered
      · intro other taskId rank inOther
        rcases inOther.of_place with ⟨rfl, creates⟩ | ⟨_, earlier⟩
        · cases (congrArg TaskPhase.lockOf creates).trans TaskPhase.lockOf_start
        · simpa [Protocol.View.place, sameTables] using
            ranking.unlimited other taskId rank earlier
  | @resume pid call phase op input answer shared present permitted
      answered =>
      rcases Host.of_failing answered with
          ⟨_, answered⟩ | ⟨_, ⟨_, rfl⟩, rfl⟩
      · exact ranking.answer present permitted answered
      · refine ⟨registering, ranking.unnumbered, ?_⟩
        intro other taskId rank inOther
        rcases inOther.of_place with ⟨rfl, creates⟩ | ⟨_, earlier⟩
        · exact (TaskPhase.failsTo_advance.ne_creating creates.symm).elim
        · exact ranking.unlimited other taskId rank earlier

/-- No call is in a phase before any has begun. -/
theorem Ranking.initially
    {start : TaskState}
    (limited : start.tables.RunsLimited)
    (unnumbered : start.tables.RunsUnnumbered) :
    TaskView.Ranking (.initial taskProtocol start) := by
  refine ⟨.initially limited, unnumbered, ?_⟩
  rintro pid taskId rank ⟨_, present⟩
  cases present

end TaskView

/-- Without a limit, and with a run, the ranks are no numbers. -/
theorem TaskTables.RunsUnnumbered.not_numbered
    {tables : TaskTables}
    {task : Task}
    (unnumbered : tables.RunsUnnumbered)
    (member : task ∈ tables.tasks.rows)
    (unlimited : task.config.times = none)
    (hasRuns : tables.runsOf task.id ≠ []) :
    ¬tables.RunsNumbered task.id := by
  intro numbered
  obtain ⟨run, runs, created⟩ := List.exists_cons_of_ne_nil hasRuns
  have ranks := numbered.ranks
  have isInfinity : run.rank = .infinity := by
    refine unnumbered task member unlimited _ ?_
    rw [ranksOf, created]
    exact List.mem_cons_self
  rw [ranksOf, created, List.map_cons, isInfinity, List.length_cons, firstRanks,
    List.range_succ_eq_map, List.map_cons] at ranks
  cases ranks

/--
Whatever statements fail, and in whatever order the calls of the services, the
retries of the mutex and the statements are interleaved: the ranks of a task
number its runs exactly when the task has a limit or no runs.
-/
theorem runs_numbered_iff
    (config : TaskServerConfig)
    (start : TaskState)
    (limited : start.tables.RunsLimited)
    (unnumbered : start.tables.RunsUnnumbered)
    (turns : List (Turn TaskCall (TaskInput ⊕ AppError)))
    (final : Interleaving TaskState taskProtocol)
    (run :
      Run (Interleaving.Step (failingTaskServices config) fun _ _ => True)
        (.initial taskProtocol start) turns final)
    (task : Task)
    (member : task ∈ final.shared.tables.tasks.rows) :
    final.shared.tables.RunsNumbered task.id ↔
      task.config.times.isSome = true ∨ final.shared.tables.runsOf task.id = [] := by
  have programs
      (call : TaskCall) :
      taskProtocol.Conforms call (taskProtocol.start call)
        ((failingTaskServices config).body call) :=
    TaskPhase.conforms_taskBody call
  obtain ⟨moves, _⟩ := Interleaving.moves_of_run programs run
  have ranking :=
    moves.invariant TaskView.Ranking
      (fun _ _ _ ranking taken => ranking.step taken.2)
      (.initially limited unnumbered)
  constructor
  · intro numbered
    by_contra neither
    rw [not_or, Bool.not_eq_true, Option.isSome_eq_false_iff,
      Option.isNone_iff_eq_none] at neither
    exact ranking.unnumbered.not_numbered member neither.1 neither.2 numbered
  · rintro (isLimited | none)
    · obtain ⟨limit, isLimit⟩ := Option.isSome_iff_exists.mp isLimited
      obtain ⟨count, numbered, _⟩ :=
        ranking.registering.limited task member limit isLimit
      exact .of_firstRanks numbered
    · refine @TaskTables.RunsNumbered.of_firstRanks _ _ 0 ?_
      rw [TaskTables.ranksOf, none]
      rfl

/-- The two runs of the task with a limit are numbered. -/
theorem runs_numbered_iff_limited :
    ∃ final,
      Run
          (Interleaving.Step (failingTaskServices lenientServer)
            fun _ _ => True)
          (.initial taskProtocol .initial) registrationTurns final ∧
        final.shared.tables.ranksOf 1 = [.finite 1, .finite 2] ∧
        final.shared.tables.RunsNumbered 1 := by
  have run
      (final : Interleaving TaskState taskProtocol)
      (executed :
        registrationTurns.foldlM
            (Interleaving.step? (failingTaskServices lenientServer))
            (.initial taskProtocol .initial) =
          some final) :=
    Interleaving.run_of_foldlM executed
  refine ⟨_, run _ rfl, rfl, ?_⟩
  exact (runs_numbered_iff lenientServer .initial (fun _ member => by cases member)
    (fun _ member => by cases member) _ _ (run _ rfl)
    ⟨1, "1_report", 1, 1, limitedTask, true⟩ (by decide)).mpr (.inl rfl)

/-- A task without a limit is created and built, and two callbacks register runs. -/
def unlimitedTurns : List (Turn TaskCall (TaskInput ⊕ AppError)) :=
  [.invoke 0 (.createTask 1 1 minutely)] ++ answers 0 5 ++
    [.invoke 1 (.build 1 minutely)] ++ answers 1 2 ++
    [.invoke 2 (.callback 1)] ++ answers 2 5 ++
    [.invoke 3 (.callback 1)] ++ answers 3 5

theorem unlimitedRuns_unnumbered :
    ∃ final,
      Run
          (Interleaving.Step (failingTaskServices lenientServer)
            fun _ _ => True)
          (.initial taskProtocol .initial) unlimitedTurns final ∧
        final.shared.tables.ranksOf 1 = [.infinity, .infinity] ∧
        ¬final.shared.tables.RunsNumbered 1 := by
  have run
      (final : Interleaving TaskState taskProtocol)
      (executed :
        unlimitedTurns.foldlM
            (Interleaving.step? (failingTaskServices lenientServer))
            (.initial taskProtocol .initial) =
          some final) :=
    Interleaving.run_of_foldlM executed
  refine ⟨_, run _ rfl, rfl, ?_⟩
  intro numbered
  cases numbered.ranks

end Prescott
