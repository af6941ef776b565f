import Prescott.RunEndings

namespace Prescott

/-!
# The files of the runs

The start of a run dispatches two consumers, which create the file of its logs
and the file of its metrics in the directories of its task and write the
entries there.  A search opens the file of the run, whatever its status is, and
reads it line by line.
-/

/-- The two kinds of entries that are kept for a run. -/
inductive EntryKind where
  | log
  | metric
  deriving Repr, DecidableEq

/-- The entries of a kind. -/
abbrev EntryKind.Entry : EntryKind → Type
  | .log => LogEntry
  | .metric => MetricEntry

/-- A reader takes the line of the entry for one line. -/
def EntryKind.IsReadable : (kind : EntryKind) → kind.Entry → Prop
  | .log, entry => entry.HasNoSeparator
  | .metric, entry => entry.HasNoSeparator

instance (kind : EntryKind) : DecidablePred kind.IsReadable := fun entry =>
  match kind with
  | .log => inferInstanceAs (Decidable (LogEntry.HasNoSeparator entry))
  | .metric => inferInstanceAs (Decidable (MetricEntry.HasNoSeparator entry))

namespace TaskState

/-- The entries in the file of a run; `none` is a missing file. -/
def entries? (state : TaskState) :
    (kind : EntryKind) → Nat → Nat → Option (List kind.Entry)
  | .log => state.logs
  | .metric => state.metrics

/-- Create or replace the file of a run. -/
def writeEntries
    (state : TaskState)
    (taskId runId : Nat) :
    (kind : EntryKind) → List kind.Entry → TaskState
  | .log, entries =>
      { state with
        logs :=
          Function.update state.logs taskId
            (Function.update (state.logs taskId) runId (some entries)) }
  | .metric, entries =>
      { state with
        metrics :=
          Function.update state.metrics taskId
            (Function.update (state.metrics taskId) runId (some entries)) }

end TaskState

/-- The directory that an operation removes. -/
def TaskOp.flushes : TaskOp → Option (EntryKind × Nat)
  | .flushLog taskId => some (.log, taskId)
  | .flushMetric taskId => some (.metric, taskId)
  | _ => none

/-- How far a call of `consumeLogGenerator` or `consumeMetricGenerator` is. -/
inductive ConsumerStage where
  /-- `ensureDirectory` has not resolved. -/
  | ensuring
  /-- The write stream has not opened its file. -/
  | opening
  | writing
  /-- The file has been removed while it was written. -/
  | unlinked
  | finished
  deriving Repr, DecidableEq

/-- A call of a consumer: what it consumes, of which run, and how far it is. -/
structure Consumer where
  kind : EntryKind
  runHandle : TaskRunHandle
  stage : ConsumerStage
  deriving Repr, DecidableEq

/-- The task calls, the directories of the data, and the consumers so far. -/
structure RunFiles where
  calls : Interleaving TaskState taskProtocol
  /-- The tasks with a directory for the entries of a kind. -/
  directories : List (EntryKind × Nat)
  consumers : List Consumer

/-- A task call goes on, or a consumer does. -/
inductive FileEvent where
  | turn (turn : Turn TaskCall (TaskInput ⊕ AppError))
  | ensureDirectory (position : Nat)
  | openFile (position : Nat)
  | write (position : Nat) (kind : EntryKind) (entry : kind.Entry)
  /-- The generator is through, or the consumer has rejected. -/
  | finish (position : Nat)

/--
A file that comes to be, an entry in it that is not readable, or the files of a
task that cease to be.
-/
inductive FileChange where
  | created (kind : EntryKind) (taskId runId : Nat)
  | broken (kind : EntryKind) (taskId runId : Nat)
  | removed (kind : EntryKind) (taskId : Nat)
  deriving Repr, DecidableEq

namespace RunFiles

/-- The directory that a turn flushes. -/
def flushed (files : RunFiles) :
    Turn TaskCall (TaskInput ⊕ AppError) → Option (EntryKind × Nat)
  | .resume pid (.inl _) =>
      match files.calls.processes pid with
      | some ⟨_, _, .await op _⟩ => TaskOp.flushes op
      | _ => none
  | _ => none

/-- The consumers that `registerRunListeners` dispatches once a run is started. -/
def registered (files : RunFiles) :
    Turn TaskCall (TaskInput ⊕ AppError) → List Consumer
  | .resume pid (.inl _) =>
      match files.calls.processes pid with
      | some ⟨.executor runHandle, _, .await (.updateRun _ dto) _⟩ =>
          if dto.status = .running then
            [⟨.log, runHandle, .ensuring⟩, ⟨.metric, runHandle, .ensuring⟩]
          else
            []
      | _ => []
  | _ => []

/-- What the removal of a directory leaves a consumer with. -/
def unlink (removed : Option (EntryKind × Nat)) (consumer : Consumer) :
    Consumer :=
  if consumer.stage = .writing ∧
      removed = some (consumer.kind, consumer.runHandle.taskId) then
    { consumer with stage := .unlinked }
  else
    consumer

/-- The directory that the consumer writes to is there. -/
def hasDirectory (files : RunFiles) (consumer : Consumer) : Bool :=
  files.directories.contains (consumer.kind, consumer.runHandle.taskId)

/-- Put a consumer into a stage. -/
def place
    (files : RunFiles)
    (position : Nat)
    (consumer : Consumer)
    (stage : ConsumerStage) :
    RunFiles :=
  { files with
    consumers := files.consumers.set position { consumer with stage } }

/-- Replace what the task calls share. -/
def withShared (files : RunFiles) (shared : TaskState) : RunFiles :=
  { files with calls := { files.calls with shared } }

/-- Let an event happen, where it is possible. -/
def step?
    (config : TaskServerConfig)
    (mayFail : TaskOp → Bool)
    (files : RunFiles) :
    FileEvent → Option RunFiles
  | .turn turn =>
      (files.calls.step? ((taskServices config).failing mayFail) turn).map
        fun calls =>
          { calls
            directories :=
              files.directories.filter fun directory =>
                files.flushed turn ≠ some directory
            consumers :=
              files.consumers.map (unlink (files.flushed turn)) ++
                files.registered turn }
  | .ensureDirectory position =>
      match files.consumers[position]? with
      | some consumer =>
          if consumer.stage = .ensuring then
            some
              { files.place position consumer .opening with
                directories :=
                  (consumer.kind, consumer.runHandle.taskId) ::
                    files.directories }
          else
            none
      | none => none
  | .openFile position =>
      match files.consumers[position]? with
      | some consumer =>
          if consumer.stage = .opening then
            if files.hasDirectory consumer then
              some
                ((files.place position consumer .writing).withShared
                  (files.calls.shared.writeEntries consumer.runHandle.taskId
                    consumer.runHandle.runId consumer.kind []))
            else
              some (files.place position consumer .finished)
          else
            none
      | none => none
  | .write position kind entry =>
      match files.consumers[position]? with
      | some ⟨ownKind, runHandle, .writing⟩ =>
          if ownKind = kind then
            (files.calls.shared.entries? kind runHandle.taskId
                runHandle.runId).map fun entries =>
              files.withShared
                (files.calls.shared.writeEntries runHandle.taskId
                  runHandle.runId kind (entries ++ [entry]))
          else
            none
      | some ⟨_, _, .unlinked⟩ => some files
      | _ => none
  | .finish position =>
      match files.consumers[position]? with
      | some consumer => some (files.place position consumer .finished)
      | none => none

/-- What an event does to the files. -/
def change (files : RunFiles) : FileEvent → Option FileChange
  | .turn turn =>
      (files.flushed turn).map fun directory =>
        .removed directory.1 directory.2
  | .openFile position =>
      match files.consumers[position]? with
      | some consumer =>
          if consumer.stage = .opening ∧ files.hasDirectory consumer then
            some
              (.created consumer.kind consumer.runHandle.taskId
                consumer.runHandle.runId)
          else
            none
      | none => none
  | .write position kind entry =>
      match files.consumers[position]? with
      | some ⟨ownKind, runHandle, .writing⟩ =>
          if ownKind = kind ∧ ¬ kind.IsReadable entry then
            some (.broken kind runHandle.taskId runHandle.runId)
          else
            none
      | _ => none
  | _ => none

/-- An event with what it does to the files. -/
def Step
    (config : TaskServerConfig)
    (mayFail : TaskOp → Bool)
    (before : RunFiles)
    (label : FileEvent × Option FileChange)
    (after : RunFiles) :
    Prop :=
  label.2 = before.change label.1 ∧
    before.step? config mayFail label.1 = some after

/-- Nothing has been created, called or stored. -/
def initial : RunFiles where
  calls := .initial taskProtocol .initial
  directories := []
  consumers := []

end RunFiles

/-! ## Searches -/

/-- The search term, if there is one, is a regular expression. -/
def EntrySearchDto.HasValidRegExp
    (dto : EntrySearchDto)
    (regExp : RegExpCompiler) :
    Prop :=
  ∀ searchTerm ∈ dto.searchTerm, (regExp searchTerm).isSome = true

theorem EntrySearchDto.HasValidRegExp.buildLogMatcher_ok
    {dto : EntrySearchDto}
    {regExp : RegExpCompiler}
    (valid : dto.HasValidRegExp regExp) :
    ∃ isMatch, buildLogMatcher regExp dto = .ok isMatch := by
  unfold buildLogMatcher buildLogMatchersList
  cases isTerm : dto.searchTerm with
  | none => exact ⟨_, rfl⟩
  | some searchTerm =>
      obtain ⟨test, compiled⟩ :=
        Option.isSome_iff_exists.mp (valid searchTerm isTerm)
      by_cases empty : searchTerm = ""
      · simp only [if_pos empty]
        exact ⟨_, rfl⟩
      · simp only [if_neg empty, compiled]
        exact ⟨_, rfl⟩

/-- The aggregates of no values. -/
def MetricValue.zero : MetricValue where
  max := .finite 0
  min := .finite 0
  avg := .finite 0
  cnt := .finite 0
  std := .finite 0

theorem aggregateMetric_nil
    (search : EntrySearchDto)
    (apply : String) :
    ∀ result ∈ aggregateMetric [] search apply, result.2 = .zero := by
  intro result member
  obtain ⟨attr, _, rfl⟩ := List.mem_map.mp member
  rfl

namespace TaskState

/-- No entry of the run is stored. -/
def StoresNothing
    (state : TaskState)
    (kind : EntryKind)
    (taskRun : TaskRun) :
    Prop :=
  ∀ entries ∈ state.entries? kind taskRun.taskId taskRun.id, entries = []

/-- The logs and metrics of a run can be queried. -/
structure Queryable
    (config : TaskServerConfig)
    (state : TaskState)
    (taskRun : TaskRun) :
    Prop where
  logs :
    ∀ regExp dto paging,
      dto.HasValidRegExp regExp →
      Fulfils (taskHost config)
        (TaskRunService.searchLogs regExp config.format taskRun.taskId taskRun.id
          dto paging)
        state fun page _ =>
          state.StoresNothing .log taskRun → page.entries = []
  metrics :
    ∀ dto paging,
      Fulfils (taskHost config)
        (TaskRunService.searchMetrics config.format taskRun.taskId taskRun.id dto
          paging)
        state fun page _ =>
          state.StoresNothing .metric taskRun → page.entries = []
  aggregates :
    ∀ search apply,
      Fulfils (taskHost config)
        (TaskRunService.aggregateMetrics config.format taskRun.taskId taskRun.id
          search apply)
        state fun aggregated _ =>
          state.StoresNothing .metric taskRun →
          ∀ result ∈ aggregated, result.2 = .zero

variable {config : TaskServerConfig}
variable {state : TaskState}
variable {taskRun : TaskRun}

/-- Whoever awaits an operation without inputs goes on with its answer. -/
theorem fulfils_perform
    {op : TaskOp}
    {post : op.Result → TaskState → Prop}
    (value : op.Result)
    (answered :
      ∀ input, taskHost config op input state = some (.ok value, state))
    (holds : post value state) :
    Fulfils (taskHost config) (TaskOp.perform op) state post := by
  refine Fulfils.perform ⟨.done, _, answered .done⟩ ?_
  intro input answer after isAnswer
  rw [answered input] at isAnswer
  cases isAnswer
  exact ⟨value, rfl, holds⟩

theorem fulfils_getOneThrowableByTaskId
    {post : TaskRun → TaskState → Prop}
    (stored : taskRun ∈ state.tables.taskRuns.rows)
    (holds : post taskRun state) :
    Fulfils (taskHost config)
      (TaskRunService.getOneThrowableByTaskId taskRun.taskId taskRun.id) state
      post := by
  have found :
      (state.tables.taskRuns.first fun run => run.id == taskRun.id) =
        some taskRun :=
    Table.first_of_key stored rfl
  refine Fulfils.bind (Fulfils.bind (fulfils_perform (some taskRun)
    (fun _ => congrArg (fun run => some (Except.ok run, state)) found) ?_))
  refine Fulfils.pure ?_
  rw [if_neg (not_not.mpr rfl)]
  exact Fulfils.pure holds

/-- The run is found, and the state is left as it is. -/
theorem settles_getOneThrowableByTaskId
    (stored : taskRun ∈ state.tables.taskRuns.rows) :
    Settles (taskHost config)
      (TaskRunService.getOneThrowableByTaskId taskRun.taskId taskRun.id) state
      (.ok taskRun) state := by
  have fulfils :
      Fulfils (taskHost config)
        (TaskRunService.getOneThrowableByTaskId taskRun.taskId taskRun.id)
        state fun found after => found = taskRun ∧ after = state :=
    fulfils_getOneThrowableByTaskId stored ⟨rfl, rfl⟩
  obtain ⟨⟨outcome, after, settles⟩, resolves⟩ := fulfils
  obtain ⟨_, rfl, rfl, rfl⟩ := resolves outcome after settles
  exact settles

section Reading

variable {runHandle : TaskRunHandle}
variable {post : List Char → TaskState → Prop}

theorem fulfils_readLog
    {entries : List LogEntry}
    (found : state.logs runHandle.taskId runHandle.runId = some entries)
    (holds : post (consumeLogGenerator config.format.integers entries) state) :
    Fulfils (taskHost config) (TaskOp.perform (.readLog runHandle)) state
      post := by
  refine fulfils_perform (consumeLogGenerator config.format.integers entries)
    (fun _ => ?_) holds
  simp only [taskHost, found]

theorem fulfils_readMetric
    {entries : List MetricEntry}
    (found : state.metrics runHandle.taskId runHandle.runId = some entries)
    (holds : post (consumeMetricGenerator config.format entries) state) :
    Fulfils (taskHost config) (TaskOp.perform (.readMetric runHandle)) state
      post := by
  refine fulfils_perform (consumeMetricGenerator config.format entries)
    (fun _ => ?_) holds
  simp only [taskHost, found]

end Reading

/-- With both files there and readable, every search and every aggregation answers. -/
theorem Queryable.of_files
    {logs : List LogEntry}
    {metrics : List MetricEntry}
    (stored : taskRun ∈ state.tables.taskRuns.rows)
    (hasLogs : state.logs taskRun.taskId taskRun.id = some logs)
    (hasMetrics : state.metrics taskRun.taskId taskRun.id = some metrics)
    (readableLogs : ∀ entry ∈ logs, entry.HasNoSeparator)
    (readableMetrics : ∀ entry ∈ metrics, entry.HasNoSeparator) :
    state.Queryable config taskRun where
  logs := by
    intro regExp dto paging valid
    obtain ⟨isMatch, matcher⟩ := valid.buildLogMatcher_ok
    refine Fulfils.bind (fulfils_getOneThrowableByTaskId stored ?_)
    simp only [matcher]
    refine Fulfils.bind (fulfils_readLog hasLogs ?_)
    simp only [searchLogFile_eq_searchLog readableLogs, searchLog, matcher]
    refine Fulfils.pure fun nothing => ?_
    rw [nothing logs hasLogs]
    rfl
  metrics := by
    intro dto paging
    refine Fulfils.bind (fulfils_getOneThrowableByTaskId stored ?_)
    refine Fulfils.bind (fulfils_readMetric hasMetrics ?_)
    simp only [searchMetricFile_eq_searchMetric readableMetrics]
    refine Fulfils.pure fun nothing => ?_
    rw [nothing metrics hasMetrics]
    rfl
  aggregates := by
    intro search apply
    refine Fulfils.bind (fulfils_getOneThrowableByTaskId stored ?_)
    refine Fulfils.bind (fulfils_readMetric hasMetrics ?_)
    simp only [aggregateMetricFile_eq_aggregateMetric readableMetrics]
    refine Fulfils.pure fun nothing => ?_
    rw [nothing metrics hasMetrics]
    exact aggregateMetric_nil search apply

/-- A search of the logs of a known run, up to the reading of its file. -/
theorem settles_searchLogs
    {regExp : RegExpCompiler}
    {dto : EntrySearchDto}
    {reason : AppError}
    (stored : taskRun ∈ state.tables.taskRuns.rows)
    (valid : dto.HasValidRegExp regExp)
    (paging : EntryPaging)
    (fails :
      (∃ entries,
          state.logs taskRun.taskId taskRun.id = some entries ∧
            searchLogFile regExp config.format.integers
                (consumeLogGenerator config.format.integers entries) dto paging =
              .error reason) ∨
        state.logs taskRun.taskId taskRun.id = none ∧ reason = .failure "ENOENT") :
    Settles (taskHost config)
      (TaskRunService.searchLogs regExp config.format taskRun.taskId taskRun.id dto
        paging)
      state (.error reason) state := by
  obtain ⟨isMatch, matcher⟩ := valid.buildLogMatcher_ok
  refine Settles.bind_iff.mpr
    (.inl ⟨taskRun, state, settles_getOneThrowableByTaskId stored, ?_⟩)
  simp only [matcher]
  rcases fails with ⟨entries, found, failed⟩ | ⟨missing, rfl⟩
  · refine Settles.bind_iff.mpr
      (.inl ⟨consumeLogGenerator config.format.integers entries, state,
        Settles.perform_iff.mpr ⟨.done, ?_⟩, ?_⟩)
    · simp only [taskHost, found]
    · simp only [failed]
      exact Settles.throw_iff.mpr ⟨rfl, rfl⟩
  · refine Settles.bind_iff.mpr (.inr ⟨.failure "ENOENT", ?_, rfl⟩)
    refine Settles.perform_iff.mpr ⟨.done, ?_⟩
    simp only [taskHost, missing]

theorem settles_searchMetrics
    {reason : AppError}
    (stored : taskRun ∈ state.tables.taskRuns.rows)
    (dto : EntrySearchDto)
    (paging : EntryPaging)
    (fails :
      (∃ entries,
          state.metrics taskRun.taskId taskRun.id = some entries ∧
            searchMetricFile config.format (consumeMetricGenerator config.format entries)
                dto paging =
              .error reason) ∨
        state.metrics taskRun.taskId taskRun.id = none ∧ reason = .failure "ENOENT") :
    Settles (taskHost config)
      (TaskRunService.searchMetrics config.format taskRun.taskId taskRun.id dto paging)
      state (.error reason) state := by
  refine Settles.bind_iff.mpr
    (.inl ⟨taskRun, state, settles_getOneThrowableByTaskId stored, ?_⟩)
  rcases fails with ⟨entries, found, failed⟩ | ⟨missing, rfl⟩
  · refine Settles.bind_iff.mpr
      (.inl ⟨consumeMetricGenerator config.format entries, state,
        Settles.perform_iff.mpr ⟨.done, ?_⟩, ?_⟩)
    · simp only [taskHost, found]
    · simp only [failed]
      exact Settles.throw_iff.mpr ⟨rfl, rfl⟩
  · refine Settles.bind_iff.mpr (.inr ⟨.failure "ENOENT", ?_, rfl⟩)
    refine Settles.perform_iff.mpr ⟨.done, ?_⟩
    simp only [taskHost, missing]

/-- The run has a file of this kind. -/
def HasFile
    (state : TaskState)
    (kind : EntryKind)
    (taskId runId : Nat) :
    Prop :=
  (state.entries? kind taskId runId).isSome = true

/-- The run has a file of this kind, and a reader finds a line for each entry. -/
def IsReadable
    (state : TaskState)
    (kind : EntryKind)
    (taskId runId : Nat) :
    Prop :=
  ∃ entries,
    state.entries? kind taskId runId = some entries ∧
      ∀ entry ∈ entries, kind.IsReadable entry

/-- Without a readable file of its logs, some search of the logs fails. -/
theorem exists_failing_searchLogs
    (stored : taskRun ∈ state.tables.taskRuns.rows)
    (unreadable : ¬ state.IsReadable .log taskRun.taskId taskRun.id) :
    ∃ paging reason,
      Settles (taskHost config)
        (TaskRunService.searchLogs (fun _ => none) config.format taskRun.taskId
          taskRun.id {} paging)
        state (.error reason) state := by
  have valid : EntrySearchDto.HasValidRegExp {} fun _ => none := by
    rintro _ ⟨⟩
  cases found : state.logs taskRun.taskId taskRun.id with
  | none =>
      exact ⟨{}, _, settles_searchLogs stored valid {} (.inr ⟨found, rfl⟩)⟩
  | some entries =>
      have notReadable :
          ¬ ∀ entry ∈ entries, LogEntry.codec.IsReadable entry := fun readable =>
        unreadable ⟨entries, found, fun entry listed =>
          LogEntry.isReadable_iff.mp (readable entry listed)⟩
      obtain ⟨paging, failed⟩ :=
        exists_failingSearch config.format.integers notReadable
      exact ⟨paging, _,
        settles_searchLogs stored valid paging (.inl ⟨entries, found, failed⟩)⟩

theorem exists_failing_searchMetrics
    (stored : taskRun ∈ state.tables.taskRuns.rows)
    (unreadable : ¬ state.IsReadable .metric taskRun.taskId taskRun.id) :
    ∃ paging reason,
      Settles (taskHost config)
        (TaskRunService.searchMetrics config.format taskRun.taskId taskRun.id {}
          paging)
        state (.error reason) state := by
  cases found : state.metrics taskRun.taskId taskRun.id with
  | none =>
      exact ⟨{}, _, settles_searchMetrics stored {} {} (.inr ⟨found, rfl⟩)⟩
  | some entries =>
      have notReadable :
          ¬ ∀ entry ∈ entries, MetricEntry.codec.IsReadable entry := fun readable =>
        unreadable ⟨entries, found, readable⟩
      obtain ⟨paging, failed⟩ := exists_failingSearch config.format notReadable
      exact ⟨paging, _,
        settles_searchMetrics stored {} paging (.inl ⟨entries, found, failed⟩)⟩

/-- A run can be queried when its files are there and can be read. -/
theorem queryable_iff
    (stored : taskRun ∈ state.tables.taskRuns.rows) :
    state.Queryable config taskRun ↔
      ∀ kind, state.IsReadable kind taskRun.taskId taskRun.id := by
  constructor
  · intro queryable kind
    by_contra unreadable
    cases kind with
    | log =>
        obtain ⟨paging, reason, settles⟩ :=
          exists_failing_searchLogs stored unreadable
        obtain ⟨_, shape, _⟩ :=
          (queryable.logs _ {} paging (by rintro _ ⟨⟩)).resolves _ _ settles
        cases shape
    | metric =>
        obtain ⟨paging, reason, settles⟩ :=
          exists_failing_searchMetrics stored unreadable
        obtain ⟨_, shape, _⟩ := (queryable.metrics {} paging).resolves _ _ settles
        cases shape
  · intro readable
    obtain ⟨logs, hasLogs, readableLogs⟩ := readable .log
    obtain ⟨metrics, hasMetrics, readableMetrics⟩ := readable .metric
    exact .of_files stored hasLogs hasMetrics readableLogs readableMetrics

theorem IsReadable.hasFile
    {kind : EntryKind}
    {taskId runId : Nat}
    (readable : state.IsReadable kind taskId runId) :
    state.HasFile kind taskId runId := by
  obtain ⟨entries, found, _⟩ := readable
  exact Option.isSome_of_eq_some found

end TaskState

/-! ## Files along a run -/

namespace TaskState

variable {kind other : EntryKind}
variable {taskId runId otherTask otherRun : Nat}

theorem entries?_writeEntries_self
    (state : TaskState)
    (entries : List kind.Entry) :
    (state.writeEntries taskId runId kind entries).entries? kind taskId runId =
      some entries := by
  cases kind <;> simp [writeEntries, entries?]

theorem entries?_writeEntries_of_ne
    (state : TaskState)
    (entries : List other.Entry)
    (isOther : ¬(kind = other ∧ taskId = otherTask ∧ runId = otherRun)) :
    (state.writeEntries otherTask otherRun other entries).entries? kind taskId runId =
      state.entries? kind taskId runId := by
  cases kind <;> cases other <;> try rfl
  all_goals
    simp only [writeEntries, entries?, Function.update_apply]
    by_cases sameTask : taskId = otherTask
    · subst sameTask
      have notRun : runId ≠ otherRun := fun sameRun => isOther ⟨rfl, rfl, sameRun⟩
      simp [notRun]
    · simp [sameTask]

@[simp] theorem hasFile_writeEntries
    {state : TaskState}
    {entries : List other.Entry} :
    (state.writeEntries otherTask otherRun other entries).HasFile kind taskId
        runId ↔
      (other = kind ∧ otherTask = taskId ∧ otherRun = runId) ∨
        state.HasFile kind taskId runId := by
  by_cases same : other = kind ∧ otherTask = taskId ∧ otherRun = runId
  · obtain ⟨rfl, rfl, rfl⟩ := same
    simp [HasFile, entries?_writeEntries_self]
  · have isOther : ¬(kind = other ∧ taskId = otherTask ∧ runId = otherRun) := by
      rintro ⟨rfl, rfl, rfl⟩
      exact same ⟨rfl, rfl, rfl⟩
    simp [HasFile, entries?_writeEntries_of_ne state entries isOther, same]

/-- What is written to a file can be read when its entries can. -/
theorem isReadable_writeEntries
    {state : TaskState}
    {entries : List other.Entry} :
    (state.writeEntries otherTask otherRun other entries).IsReadable kind taskId
        runId ↔
      if other = kind ∧ otherTask = taskId ∧ otherRun = runId then
        ∀ entry ∈ entries, other.IsReadable entry
      else
        state.IsReadable kind taskId runId := by
  by_cases same : other = kind ∧ otherTask = taskId ∧ otherRun = runId
  · obtain ⟨rfl, rfl, rfl⟩ := same
    simp [IsReadable, entries?_writeEntries_self]
  · have isOther : ¬(kind = other ∧ taskId = otherTask ∧ runId = otherRun) := by
      rintro ⟨rfl, rfl, rfl⟩
      exact same ⟨rfl, rfl, rfl⟩
    simp [IsReadable, entries?_writeEntries_of_ne state entries isOther, same]

section Host

variable {config : TaskServerConfig}
variable {op : TaskOp}
variable {input : TaskInput}
variable {before after : TaskState}
variable {answer : Except AppError op.Result}

/-- Besides the flushes, no operation touches a file. -/
theorem files_of_answered
    (answered : taskHost config op input before = some (answer, after))
    (noLogs : ∀ taskId, op ≠ .flushLog taskId)
    (noMetrics : ∀ taskId, op ≠ .flushMetric taskId) :
    after.logs = before.logs ∧ after.metrics = before.metrics := by
  cases op with
  | flushLog taskId => exact absurd rfl (noLogs taskId)
  | flushMetric taskId => exact absurd rfl (noMetrics taskId)
  | insertTask | insertRun =>
      rcases TaskState.attempt_eq answered with
          ⟨_, _, _, _, rfl⟩ | ⟨_, _, _, rfl⟩ <;>
        exact ⟨rfl, rfl⟩
  | deleteEnv | runEnv | getEnvChildren | dockerStop | dockerRemove
  | dockerWait | dockerInspectExitCode =>
      obtain ⟨docker, rfl⟩ := TaskState.command_eq answered
      exact ⟨rfl, rfl⟩
  | buildEnv | readLog | readMetric | schedulerSchedule | lockResource =>
      simp only [taskHost] at answered
      split at answered <;> cases answered <;> exact ⟨rfl, rfl⟩
  | _ =>
      cases answered
      exact ⟨rfl, rfl⟩

end Host

end TaskState

namespace RunFiles

variable {config : TaskServerConfig}
variable {mayFail : TaskOp → Bool}
variable {kind : EntryKind}
variable {taskId runId : Nat}

/-- A turn removes what is stored for the task that it flushes, and no more. -/
theorem entries_of_turn
    {files : RunFiles}
    {turn : Turn TaskCall (TaskInput ⊕ AppError)}
    {calls : Interleaving TaskState taskProtocol}
    (stepped :
      files.calls.step? ((taskServices config).failing mayFail) turn = some calls)
    (kind : EntryKind)
    (taskId runId : Nat) :
    calls.shared.entries? kind taskId runId =
      if files.flushed turn = some (kind, taskId) then
        none
      else
        files.calls.shared.entries? kind taskId runId := by
  cases turn with
  | invoke pid call =>
      simp only [Interleaving.step?] at stepped
      split at stepped
      · cases stepped
      obtain ⟨shared, begun, rfl⟩ := Option.map_eq_some_iff.mp stepped
      have same :
          shared.entries? kind taskId runId =
            files.calls.shared.entries? kind taskId runId := by
        cases begins_of_begun begun <;> cases kind <;> rfl
      simpa [flushed] using same
  | resume pid input =>
      obtain ⟨⟨call, phase, residual⟩, op, resume, answer, shared, present, awaiting,
        answered, rfl⟩ := Interleaving.step?_resume stepped
      change residual = _ at awaiting
      subst awaiting
      cases input with
      | inr reason =>
          change (taskHost config).failing mayFail op (.inr reason) _ = _ at answered
          simp only [Host.failing] at answered
          split at answered <;> cases answered
          simp [flushed]
      | inl input =>
          have isFlushed : files.flushed (.resume pid (.inl input)) = op.flushes := by
            simp only [flushed, present]
          rw [isFlushed]
          change taskHost config op input files.calls.shared = _ at answered
          change shared.entries? kind taskId runId = _
          cases op with
          | flushLog flushedTask =>
              cases answered
              by_cases same : flushedTask = taskId
              · cases kind <;> simp [TaskState.entries?, TaskOp.flushes, same]
              · cases kind <;>
                  simp [TaskState.entries?, TaskOp.flushes, same, Ne.symm same]
          | flushMetric flushedTask =>
              cases answered
              by_cases same : flushedTask = taskId
              · cases kind <;> simp [TaskState.entries?, TaskOp.flushes, same]
              · cases kind <;>
                  simp [TaskState.entries?, TaskOp.flushes, same, Ne.symm same]
          | _ =>
              obtain ⟨sameLogs, sameMetrics⟩ :=
                TaskState.files_of_answered answered (by rintro _ ⟨⟩) (by rintro _ ⟨⟩)
              cases kind <;>
                simp [TaskState.entries?, TaskOp.flushes, sameLogs, sameMetrics]

theorem hasFile_of_turn
    {files : RunFiles}
    {turn : Turn TaskCall (TaskInput ⊕ AppError)}
    {calls : Interleaving TaskState taskProtocol}
    (stepped :
      files.calls.step? ((taskServices config).failing mayFail) turn =
        some calls)
    (present : calls.shared.HasFile kind taskId runId) :
    files.calls.shared.HasFile kind taskId runId := by
  rw [TaskState.HasFile, entries_of_turn stepped] at present
  split at present
  · cases present
  · exact present

/-- A turn of the calls removes the files it flushes and touches no other ones. -/
theorem isReadable_of_turn
    {files : RunFiles}
    {turn : Turn TaskCall (TaskInput ⊕ AppError)}
    {calls : Interleaving TaskState taskProtocol}
    (stepped :
      files.calls.step? ((taskServices config).failing mayFail) turn =
        some calls) :
    calls.shared.IsReadable kind taskId runId ↔
      files.calls.shared.IsReadable kind taskId runId ∧
        files.flushed turn ≠ some (kind, taskId) := by
  rw [TaskState.IsReadable, entries_of_turn stepped]
  by_cases isFlushed : files.flushed turn = some (kind, taskId)
  · simp [isFlushed]
  · simp [isFlushed, TaskState.IsReadable]

/-- What an event does to the files is what it is labelled with. -/
theorem isReadable_of_step
    {before after : RunFiles}
    {label : FileEvent × Option FileChange}
    (taken : Step config mayFail before label after) :
    after.calls.shared.IsReadable kind taskId runId ↔
      label.2 = some (.created kind taskId runId) ∨
        before.calls.shared.IsReadable kind taskId runId ∧
          label.2 ≠ some (.removed kind taskId) ∧
          label.2 ≠ some (.broken kind taskId runId) := by
  obtain ⟨event, seen⟩ := label
  obtain ⟨isChange, stepped⟩ := taken
  obtain rfl : seen = before.change event := isChange
  change before.step? config mayFail event = _ at stepped
  cases event with
  | turn turn =>
      obtain ⟨calls, turned, rfl⟩ := Option.map_eq_some_iff.mp stepped
      rw [isReadable_of_turn turned]
      cases removed : before.flushed turn <;>
        simp [change, removed, Prod.ext_iff]
  | ensureDirectory position =>
      simp only [step?] at stepped
      split at stepped
      · split at stepped <;> cases stepped
        simp [change, place]
      · cases stepped
  | openFile position =>
      simp only [step?] at stepped
      split at stepped
      next consumer found =>
        split at stepped
        next opening =>
          split at stepped
          next present =>
            cases stepped
            simp only [change, found, opening, present, withShared, place,
              TaskState.isReadable_writeEntries]
            by_cases same :
                consumer.kind = kind ∧ consumer.runHandle.taskId = taskId ∧
                  consumer.runHandle.runId = runId
            · obtain ⟨rfl, rfl, rfl⟩ := same
              simp
            · simp [same]
          next missing =>
            cases stepped
            simp [change, found, missing, place]
        next => cases stepped
      next => cases stepped
  | write position kind entry =>
      simp only [step?] at stepped
      split at stepped
      next ownKind runHandle found =>
        split at stepped
        next sameKind =>
          subst sameKind
          obtain ⟨entries, stored, rfl⟩ := Option.map_eq_some_iff.mp stepped
          simp only [change, withShared, found, TaskState.isReadable_writeEntries]
          by_cases same :
              ownKind = kind ∧ runHandle.taskId = taskId ∧ runHandle.runId = runId
          · obtain ⟨rfl, rfl, rfl⟩ := same
            simp [TaskState.IsReadable, stored, or_imp, forall_and]
          · simp [same]
        · cases stepped
      next found =>
        cases stepped
        simp [change, found]
      · cases stepped
  | finish position =>
      simp only [step?] at stepped
      split at stepped <;> cases stepped
      simp [change, place]

end RunFiles

/-- The file was created, and since then neither removed nor broken. -/
def FileKept
    (kind : EntryKind)
    (taskId runId : Nat)
    (labels : List (FileEvent × Option FileChange)) :
    Prop :=
  ∃ earlier creation later,
    labels = earlier ++ creation :: later ∧
      creation.2 = some (.created kind taskId runId) ∧
      ∀ label ∈ later,
        label.2 ≠ some (.removed kind taskId) ∧
          label.2 ≠ some (.broken kind taskId runId)

theorem fileKept_snoc
    {kind : EntryKind}
    {taskId runId : Nat}
    {labels : List (FileEvent × Option FileChange)}
    {label : FileEvent × Option FileChange} :
    FileKept kind taskId runId (labels ++ [label]) ↔
      label.2 = some (.created kind taskId runId) ∨
        FileKept kind taskId runId labels ∧
          label.2 ≠ some (.removed kind taskId) ∧
          label.2 ≠ some (.broken kind taskId runId) := by
  constructor
  · rintro ⟨earlier, creation, later, split, created, notRemoved⟩
    rcases List.eq_nil_or_concat later with rfl | ⟨between, last, rfl⟩
    · obtain ⟨_, same⟩ := List.append_inj' split rfl
      obtain rfl := List.singleton_injective same
      exact .inl created
    · rw [List.concat_eq_append, ← List.cons_append, ← List.append_assoc]
        at split
      obtain ⟨rfl, same⟩ := List.append_inj' split rfl
      obtain rfl := List.singleton_injective same
      rw [List.concat_eq_append, List.forall_mem_append] at notRemoved
      exact .inr ⟨⟨earlier, creation, between, rfl, created, notRemoved.1⟩,
        notRemoved.2 label List.mem_cons_self⟩
  · rintro (created | ⟨⟨earlier, creation, later, rfl, created, notRemoved⟩,
        stays⟩)
    · exact ⟨labels, label, [], rfl, created, List.forall_mem_nil _⟩
    · refine ⟨earlier, creation, later ++ [label], by simp, created, ?_⟩
      rw [List.forall_mem_append]
      exact ⟨notRemoved, by simpa using stays⟩

namespace RunFiles

/-- The readable files are those that have been created and kept. -/
theorem isReadable_iff_fileKept
    {config : TaskServerConfig}
    {mayFail : TaskOp → Bool}
    {labels : List (FileEvent × Option FileChange)}
    {final : RunFiles}
    (run : Run (Step config mayFail) initial labels final)
    (kind : EntryKind)
    (taskId runId : Nat) :
    final.calls.shared.IsReadable kind taskId runId ↔
      FileKept kind taskId runId labels := by
  induction run with
  | nil =>
      cases kind <;>
        simp [TaskState.IsReadable, TaskState.entries?, initial,
          Interleaving.initial, TaskState.initial, FileKept]
  | snoc earlier last inductionHypothesis =>
      rw [isReadable_of_step last, fileKept_snoc, inductionHypothesis]

end RunFiles

/-! ## Statuses and files -/

/-- A run that is known and whose row, if there is one, is not pending. -/
structure TaskTables.HasStarted (tables : TaskTables) (runId : Nat) :
    Prop where
  known : runId < tables.taskRuns.nextId
  notPending :
    ∀ run ∈ tables.taskRuns.rows, run.id = runId → run.status ≠ .pending

section Turns

variable {config : TaskServerConfig}
variable {mayFail : TaskOp → Bool}
variable {op : TaskOp}
variable {input : TaskInput ⊕ AppError}
variable {before after : TaskState}
variable {answer : Except AppError op.Result}
variable {call : TaskCall}
variable {phase : TaskPhase}
variable {runId : Nat}

/-- No operation of a call takes a run back that has started. -/
theorem TaskTables.HasStarted.answered
    (started : before.tables.HasStarted runId)
    (permitted : phase.permits call op)
    (answered :
      (taskHost config).failing mayFail op input before =
        some (answer, after)) :
    after.tables.HasStarted runId := by
  rcases Host.of_failing answered with ⟨_, answered⟩ | ⟨_, _, rfl⟩
  · have runsStep := runsStep_of_answered answered
    refine ⟨Nat.lt_of_lt_of_le started.known runsStep.nextId_le, ?_⟩
    rintro run member rfl
    cases runsStep.origin run member with
    | kept oldMember sameId _ sameStatus =>
        rw [← sameStatus]
        exact started.notPending _ oldMember sameId
    | updated _ _ _ isOp status =>
        subst isOp
        obtain ⟨_, _, _, ⟨_, _, _, isRunning⟩ | ⟨_, _, _, _, isOver⟩⟩ :=
          TaskPhase.updating_of_permits permitted
        · simp [status, isRunning]
        · rcases isOver with succeed | failed
          · simp [status, succeed]
          · simp [status, failed]
    | swept _ _ _ isOp status =>
        subst isOp
        obtain ⟨_, _, isStopped⟩ := TaskPhase.stopping_of_permits permitted
        simp [status, isStopped]
    | inserted _ fresh =>
        exact absurd fresh (Nat.ne_of_lt started.known)
  · exact started

/-- The run whose start is recorded has started. -/
theorem TaskTables.HasStarted.of_start
    {dto : UpdateTaskRunDto}
    {answer : Except AppError Unit}
    {input : TaskInput}
    (known : runId < before.tables.taskRuns.nextId)
    (answered :
      taskHost config (.updateRun runId dto) input before =
        some (answer, after))
    (isRunning : dto.status = .running) :
    after.tables.HasStarted runId := by
  cases answered
  refine ⟨known, fun run member isRun => ?_⟩
  obtain ⟨old, oldMember, rfl⟩ := TaskTables.mem_updateRuns.mp member
  split at isRun
  next isRow =>
    rw [if_pos isRow]
    change dto.status ≠ .pending
    simp [isRunning]
  next notRow => exact (notRow (beq_iff_eq.mpr isRun)).elim

theorem TaskView.RunsOwned.step
    {before after : TaskView}
    {turn : Turn TaskCall (TaskInput ⊕ AppError)}
    (runsOwned : before.RunsOwned)
    (moves :
      Protocol.Moves ((taskServices config).failing mayFail) taskProtocol before
        turn after) :
    after.RunsOwned := by
  cases moves with
  | invoke _ begun => exact runsOwned.begun begun
  | resume present permitted answered =>
      exact runsOwned.answered present permitted answered

end Turns

namespace RunFiles

/-- Consumers and files belong to runs that have started. -/
structure StartsRecorded (files : RunFiles) : Prop where
  conforming : files.calls.Conforming
  owned : TaskView.RunsOwned files.calls.view
  consumers :
    ∀ consumer ∈ files.consumers,
      files.calls.shared.tables.HasStarted consumer.runHandle.runId
  stored :
    ∀ kind taskId runId,
      files.calls.shared.HasFile kind taskId runId →
      files.calls.shared.tables.HasStarted runId

variable {config : TaskServerConfig}
variable {mayFail : TaskOp → Bool}
variable {before after : RunFiles}
variable {turn : Turn TaskCall (TaskInput ⊕ AppError)}
variable {calls : Interleaving TaskState taskProtocol}
variable {runId : Nat}

/-- No turn takes a run back that has started. -/
theorem hasStarted_of_turn
    (conforming : before.calls.Conforming)
    (stepped :
      before.calls.step? ((taskServices config).failing mayFail) turn =
        some calls)
    (started : before.calls.shared.tables.HasStarted runId) :
    calls.shared.tables.HasStarted runId := by
  cases turn with
  | invoke pid call =>
      simp only [Interleaving.step?] at stepped
      split at stepped
      · cases stepped
      obtain ⟨shared, begun, rfl⟩ := Option.map_eq_some_iff.mp stepped
      change shared.tables.HasStarted runId
      rw [(beginTaskCall_keeps begun).1]
      exact started
  | resume pid input =>
      obtain ⟨process, op, resume, answer, shared, present, awaiting,
        answered, rfl⟩ := Interleaving.step?_resume stepped
      have conforms := conforming pid process present
      rw [awaiting] at conforms
      exact started.answered conforms.1 answered

/-- A consumer that a turn dispatches belongs to a run that has started. -/
theorem hasStarted_of_registered
    (conforming : before.calls.Conforming)
    (owned : TaskView.RunsOwned before.calls.view)
    (stepped :
      before.calls.step? ((taskServices config).failing mayFail) turn =
        some calls)
    {consumer : Consumer}
    (member : consumer ∈ before.registered turn) :
    calls.shared.tables.HasStarted consumer.runHandle.runId := by
  cases turn with
  | invoke pid call => cases member
  | resume pid input =>
      obtain ⟨process, op, resume, answer, shared, present, awaiting,
        answered, rfl⟩ := Interleaving.step?_resume stepped
      have conforms := conforming pid process present
      rw [awaiting] at conforms
      obtain ⟨call, phase, residual⟩ := process
      change residual = _ at awaiting
      subst awaiting
      cases input with
      | inr reason => cases member
      | inl input =>
          simp only [registered, present] at member
          split at member
          next runHandle _ runId dto _ shape =>
            cases shape
            split at member
            next isRunning =>
              obtain ⟨_, isCall, rfl, _⟩ :=
                TaskPhase.updating_of_permits conforms.1
              cases isCall
              have carries : TaskView.Carries before.calls.view pid runHandle
                  (TaskPhase.stage phase) :=
                ⟨.executor runHandle, phase,
                  by simp [Interleaving.view, present], rfl⟩
              have answered :
                  taskHost config (.updateRun runHandle.runId dto) input
                    before.calls.shared = some (answer, shared) :=
                answered
              have started : shared.tables.HasStarted runHandle.runId :=
                .of_start (owned.known _ _ _ carries).known answered isRunning
              have isConsumer : consumer.runHandle = runHandle := by
                simp only [List.mem_cons, List.not_mem_nil, or_false]
                  at member
                rcases member with rfl | rfl <;> rfl
              rw [isConsumer]
              exact started
            next => cases member
          next => cases member

/-- What a turn dispatches and leaves belongs to runs that have started. -/
theorem StartsRecorded.turned
    (recorded : before.StartsRecorded)
    (stepped :
      before.calls.step? ((taskServices config).failing mayFail) turn =
        some calls) :
    StartsRecorded
      { calls
        directories :=
          before.directories.filter fun directory =>
            before.flushed turn ≠ some directory
        consumers :=
          before.consumers.map (unlink (before.flushed turn)) ++
            before.registered turn } := by
  have taken :
      Interleaving.Step ((taskServices config).failing mayFail)
        (fun _ _ => True) before.calls turn calls :=
    ⟨trivial, stepped⟩
  obtain ⟨moves, conforming⟩ :=
    taken.moves TaskPhase.conforms_taskBody recorded.conforming
  refine ⟨conforming, recorded.owned.step moves, ?_, ?_⟩
  · intro consumer member
    rcases List.mem_append.mp member with old | isNew
    · obtain ⟨earlier, earlierMember, rfl⟩ := List.mem_map.mp old
      have sameRun : (unlink (before.flushed turn) earlier).runHandle =
          earlier.runHandle := by
        unfold unlink
        split <;> rfl
      rw [sameRun]
      exact hasStarted_of_turn recorded.conforming stepped
        (recorded.consumers earlier earlierMember)
    · exact hasStarted_of_registered recorded.conforming recorded.owned stepped
        isNew
  · intro kind taskId runId present
    exact hasStarted_of_turn recorded.conforming stepped
      (recorded.stored kind taskId runId (hasFile_of_turn stepped present))

/-- A consumer that goes on keeps its run. -/
theorem StartsRecorded.place
    (recorded : before.StartsRecorded)
    {position : Nat}
    {consumer : Consumer}
    (found : before.consumers[position]? = some consumer)
    (stage : ConsumerStage) :
    (before.place position consumer stage).StartsRecorded where
  conforming := recorded.conforming
  owned := recorded.owned
  consumers := by
    intro other member
    rcases List.mem_or_eq_of_mem_set member with old | rfl
    · exact recorded.consumers other old
    · exact recorded.consumers consumer (List.mem_of_getElem? found)
  stored := recorded.stored

/-- What a consumer writes to belongs to a run that has started. -/
theorem StartsRecorded.withShared
    (recorded : before.StartsRecorded)
    {shared : TaskState}
    (sameTables : shared.tables = before.calls.shared.tables)
    (sameQueue : shared.queue = before.calls.shared.queue)
    (stored :
      ∀ kind taskId runId,
        shared.HasFile kind taskId runId →
        before.calls.shared.tables.HasStarted runId) :
    (before.withShared shared).StartsRecorded where
  conforming := recorded.conforming
  owned :=
    { known := by
        intro pid runHandle stage carries
        change shared.tables.Backs runHandle .ended
        rw [sameTables]
        exact recorded.owned.known pid runHandle stage carries
      queued := by
        intro runHandle queued
        change runHandle ∈ shared.queue at queued
        change shared.tables.Backs runHandle .ended
        rw [sameQueue] at queued
        rw [sameTables]
        exact recorded.owned.queued runHandle queued
      unique := recorded.owned.unique
      queueNodup := by
        change (shared.queue.map TaskRunHandle.runId).Nodup
        rw [sameQueue]
        exact recorded.owned.queueNodup
      notQueued := by
        intro pid runHandle stage carries
        change runHandle.runId ∉ shared.queue.map TaskRunHandle.runId
        rw [sameQueue]
        exact recorded.owned.notQueued pid runHandle stage carries }
  consumers := by
    intro consumer member
    change shared.tables.HasStarted consumer.runHandle.runId
    rw [sameTables]
    exact recorded.consumers consumer member
  stored := by
    intro kind taskId runId present
    change shared.tables.HasStarted runId
    rw [sameTables]
    exact stored kind taskId runId present

theorem StartsRecorded.writeEntries
    (recorded : before.StartsRecorded)
    {kind : EntryKind}
    {runHandle : TaskRunHandle}
    (started : before.calls.shared.tables.HasStarted runHandle.runId)
    (entries : List kind.Entry) :
    (before.withShared
      (before.calls.shared.writeEntries runHandle.taskId runHandle.runId kind
        entries)).StartsRecorded := by
  refine recorded.withShared (by cases kind <;> rfl) (by cases kind <;> rfl) ?_
  intro other taskId runId present
  rcases TaskState.hasFile_writeEntries.mp present with ⟨_, _, rfl⟩ | old
  · exact started
  · exact recorded.stored other taskId runId old

/-- Whatever happens, consumers and files belong to runs that have started. -/
theorem StartsRecorded.step
    {label : FileEvent × Option FileChange}
    (recorded : before.StartsRecorded)
    (taken : Step config mayFail before label after) :
    after.StartsRecorded := by
  obtain ⟨event, seen⟩ := label
  obtain ⟨_, stepped⟩ := taken
  change before.step? config mayFail event = _ at stepped
  cases event with
  | turn turn =>
      obtain ⟨calls, turned, rfl⟩ := Option.map_eq_some_iff.mp stepped
      exact recorded.turned turned
  | ensureDirectory position =>
      simp only [step?] at stepped
      split at stepped
      next consumer found =>
        split at stepped <;> cases stepped
        have placed := recorded.place found .opening
        exact ⟨placed.conforming, placed.owned, placed.consumers,
          placed.stored⟩
      next => cases stepped
  | openFile position =>
      simp only [step?] at stepped
      split at stepped
      next consumer found =>
        split at stepped
        next =>
          split at stepped <;> cases stepped
          · exact (recorded.place found .writing).writeEntries
              (recorded.consumers consumer (List.mem_of_getElem? found)) []
          · exact recorded.place found .finished
        next => cases stepped
      next => cases stepped
  | write position kind entry =>
      simp only [step?] at stepped
      split at stepped
      next ownKind runHandle found =>
        split at stepped
        next =>
          obtain ⟨entries, _, rfl⟩ := Option.map_eq_some_iff.mp stepped
          exact recorded.writeEntries
            (recorded.consumers _ (List.mem_of_getElem? found)) _
        next => cases stepped
      next =>
        cases stepped
        exact recorded
      next => cases stepped
  | finish position =>
      simp only [step?] at stepped
      split at stepped
      next consumer found =>
        cases stepped
        exact recorded.place found .finished
      next => cases stepped

theorem startsRecorded_initial : initial.StartsRecorded where
  conforming := by
    intro pid process present
    cases present
  owned := TaskView.RunsCarried.initially.owned
  consumers := nofun
  stored := by
    intro kind taskId runId present
    cases kind <;> cases present

/-- In every run a pending run has no file. -/
theorem not_hasFile_of_pending
    {labels : List (FileEvent × Option FileChange)}
    {final : RunFiles}
    (run : Run (Step config mayFail) initial labels final)
    {taskRun : TaskRun}
    (stored : taskRun ∈ final.calls.shared.tables.taskRuns.rows)
    (pending : taskRun.status = .pending)
    (kind : EntryKind)
    (taskId : Nat) :
    ¬ final.calls.shared.HasFile kind taskId taskRun.id := by
  intro present
  have recorded :=
    run.invariant StartsRecorded (fun _ _ _ held taken => held.step taken)
      startsRecorded_initial
  exact (recorded.stored kind taskId taskRun.id present).notPending taskRun
    stored rfl pending

end RunFiles

/--
After whatever the task calls and the consumers have done, a run can be queried
exactly when its two consumers have created their files, and since then no flush
of its task has removed one and no entry with a separator has been written to
one; a pending run cannot.
-/
theorem runs_queryable_iff
    (config : TaskServerConfig)
    (mayFail : TaskOp → Bool)
    (labels : List (FileEvent × Option FileChange))
    (final : RunFiles)
    (run : Run (RunFiles.Step config mayFail) .initial labels final)
    (taskRun : TaskRun)
    (stored : taskRun ∈ final.calls.shared.tables.taskRuns.rows) :
    (final.calls.shared.Queryable config taskRun ↔
        ∀ kind, FileKept kind taskRun.taskId taskRun.id labels) ∧
      (taskRun.status = .pending →
        ¬ final.calls.shared.Queryable config taskRun) := by
  have files : final.calls.shared.Queryable config taskRun ↔ _ :=
    TaskState.queryable_iff stored
  constructor
  · rw [files]
    exact forall_congr' fun kind =>
      RunFiles.isReadable_iff_fileKept run kind taskRun.taskId taskRun.id
  · intro pending queryable
    exact RunFiles.not_hasFile_of_pending run stored pending .log
      taskRun.taskId (files.mp queryable .log).hasFile

/-- Executed events with the right labels are a run. -/
theorem RunFiles.run_of_foldlM
    {config : TaskServerConfig}
    {mayFail : TaskOp → Bool}
    {labels : List (FileEvent × Option FileChange)}
    {start final : RunFiles}
    (executed :
      labels.foldlM
          (fun files label =>
            if label.2 = files.change label.1 then
              files.step? config mayFail label.1
            else
              none)
          start =
        some final) :
    Run (Step config mayFail) start labels final := by
  refine (Run.of_foldlM executed).mono fun before label after stepped => ?_
  split at stepped
  next isChange => exact ⟨isChange, stepped⟩
  next => cases stepped

/-- The entry of a task fires once, and its run is enqueued. -/
def firedLabels : List (FileEvent × Option FileChange) :=
  firedTurns.map fun turn => (.turn turn, none)

/-- The executor of that run records its start. -/
def launchedLabels : List (FileEvent × Option FileChange) :=
  [(.turn (.invoke 3 (.executor ⟨1, 1, .infinity⟩)), none),
    (.turn (.resume 3 (.inl .done)), none),
    (.turn (.resume 3 (.inl (.container "worker"))), none),
    (.turn (.resume 3 (.inl .done)), none)]

/-- The two consumers create their files. -/
def openedLabels : List (FileEvent × Option FileChange) :=
  [(.ensureDirectory 0, none), (.ensureDirectory 1, none),
    (.openFile 0, some (.created .log 1 1)),
    (.openFile 1, some (.created .metric 1 1))]

/-- The consumer of the logs writes an entry. -/
def writtenLabels : List (FileEvent × Option FileChange) :=
  [(.write 0 .log ⟨.stdout, some 0, "ab"⟩, none)]

/-- The executed run, with a written entry, can be queried. -/
theorem runs_queryable_iff_opened :
    ∃ final,
      Run (RunFiles.Step lenientServer fun _ => false) .initial
          (firedLabels ++ launchedLabels ++ openedLabels ++ writtenLabels) final ∧
        ∃ taskRun ∈ final.calls.shared.tables.taskRuns.rows,
          final.calls.shared.Queryable lenientServer taskRun := by
  have run
      (final : RunFiles)
      (executed :
        (firedLabels ++ launchedLabels ++ openedLabels ++ writtenLabels).foldlM
            (fun files label =>
              if label.2 = files.change label.1 then
                files.step? lenientServer (fun _ => false) label.1
              else
                none)
            RunFiles.initial =
          some final) :=
    RunFiles.run_of_foldlM executed
  refine ⟨_, run _ rfl, _, List.mem_cons_self,
    (runs_queryable_iff lenientServer (fun _ => false) _ _ (run _ rfl) _
      List.mem_cons_self).1.mpr fun kind => ?_⟩
  cases kind with
  | log =>
      exact ⟨firedLabels ++ launchedLabels ++ openedLabels.take 2,
        (.openFile 0, some (.created .log 1 1)), openedLabels.drop 3 ++ writtenLabels,
        by simp [openedLabels], rfl, by decide⟩
  | metric =>
      exact ⟨firedLabels ++ launchedLabels ++ openedLabels.take 3,
        (.openFile 1, some (.created .metric 1 1)), writtenLabels,
        by simp [openedLabels], rfl, by decide⟩

/-- The run that waits in the queue cannot be queried. -/
theorem pendingRun_notQueryable :
    ∃ final,
      Run (RunFiles.Step lenientServer fun _ => false) .initial firedLabels
          final ∧
        ∃ taskRun ∈ final.calls.shared.tables.taskRuns.rows,
          taskRun.status = .pending ∧
            Settles (taskHost lenientServer)
              (TaskRunService.searchLogs (fun _ => none) lenientServer.format
                taskRun.taskId taskRun.id {} {})
              final.calls.shared (.error (.failure "ENOENT"))
              final.calls.shared ∧
            ¬ final.calls.shared.Queryable lenientServer taskRun := by
  refine ⟨_, RunFiles.run_of_foldlM rfl, _, List.mem_cons_self, rfl,
    TaskState.settles_searchLogs List.mem_cons_self (by rintro _ ⟨⟩) {}
      (.inr ⟨rfl, rfl⟩), fun queryable => ?_⟩
  obtain ⟨_, missing, _⟩ :=
    (TaskState.queryable_iff List.mem_cons_self).mp queryable .log
  cases missing

end Prescott
