import Prescott.DataFiles
import Prescott.LogFile
import Prescott.LogPipes

namespace Prescott

/-!
# From the container to the page

A consumer takes what `docker logs` writes into two pipes, and writes it to the
file of its run, while task calls, flushes and other consumers go on.  A search
shows a prefix of what the container of the run has printed.
-/

/-- The chunks that are written to a stream. -/
def chunksOf (stream : LogEntryStream) (chunks : List LogChunk) : List (List UInt8) :=
  (chunks.filter fun chunk => chunk.stream = stream).map LogChunk.bytes

/-- What `logs` yields in the end: the first stream, and after it the second one. -/
def capturedOf (dateParse : DateParser) (output : List LogChunk) : List CapturedLog :=
  DockerEnvHandle.consumeLogStream dateParse (chunksOf .stdout output) .stdout ++
    DockerEnvHandle.consumeLogStream dateParse (chunksOf .stderr output) .stderr

/-- The captured entry that is written so: where its time is `NaN`, `null` is written. -/
def LogEntry.captured (entry : LogEntry) : CapturedLog where
  stream := entry.stream
  time := entry.time
  content := entry.content

namespace LogPipes

variable {dateParse : DateParser}
variable {capacity : Nat}
variable {output : List LogChunk}
variable {before after pipes : LogPipes}

/-- What is still to be yielded. -/
def remaining (dateParse : DateParser) (pipes : LogPipes) : List CapturedLog :=
  DockerEnvHandle.consumeLogStream dateParse
      (pipes.stdout ++ chunksOf .stdout pipes.pending) .stdout ++
    DockerEnvHandle.consumeLogStream dateParse
      (pipes.stderr ++ chunksOf .stderr pipes.pending) .stderr

/-- What has been yielded and what is still to be, are the whole output. -/
structure Delivers
    (dateParse : DateParser)
    (capacity : Nat)
    (output : List LogChunk)
    (pipes : LogPipes) :
    Prop where
  sound : Sound capacity output pipes
  whole : pipes.delivered ++ pipes.remaining dateParse = capturedOf dateParse output

theorem Delivers.start : Delivers dateParse capacity output (start output) where
  sound := .start
  whole := rfl

theorem chunksOf_cons
    (stream : LogEntryStream)
    (chunk : LogChunk)
    (chunks : List LogChunk) :
    chunksOf stream (chunk :: chunks) =
      if chunk.stream = stream then
        chunk.bytes :: chunksOf stream chunks
      else
        chunksOf stream chunks := by
  by_cases same : chunk.stream = stream <;> simp [chunksOf, same]

/-- A written chunk waits in its pipe, in its place. -/
theorem remaining_of_write
    (written : before.write capacity = some after) :
    after.remaining dateParse = before.remaining dateParse ∧
      after.delivered = before.delivered := by
  obtain ⟨pending, closed, stdout, stderr, reading, delivered⟩ := before
  cases pending with
  | nil =>
      cases closed <;> cases written
      exact ⟨rfl, rfl⟩
  | cons chunk rest =>
      obtain ⟨_, shape⟩ := Option.ite_none_right_eq_some.mp written
      cases shape
      obtain ⟨stream, bytes⟩ := chunk
      cases stream <;>
        simp [remaining, put, chunksOf_cons, List.append_assoc]

/-- The reader goes over to the next stream, or it yields what is next. -/
theorem read_cases
    (read : before.read dateParse = some after) :
    (∃ next, after = { before with reading := next }) ∨
      (∃ chunk rest,
        before.reading = some .stdout ∧ before.stdout = chunk :: rest ∧
          after = deliver dateParse .stdout chunk { before with stdout := rest }) ∨
      ∃ chunk rest,
        before.reading = some .stderr ∧ before.stderr = chunk :: rest ∧
          after = deliver dateParse .stderr chunk { before with stderr := rest } := by
  obtain ⟨pending, closed, stdout, stderr, reading, delivered⟩ := before
  cases reading with
  | none => cases read
  | some stream =>
      cases stream with
      | stdout =>
          cases stdout with
          | nil =>
              obtain ⟨_, shape⟩ := Option.ite_none_right_eq_some.mp read
              exact .inl ⟨_, (Option.some.inj shape).symm⟩
          | cons chunk rest =>
              exact .inr (.inl ⟨chunk, rest, rfl, rfl, (Option.some.inj read).symm⟩)
      | stderr =>
          cases stderr with
          | nil =>
              obtain ⟨_, shape⟩ := Option.ite_none_right_eq_some.mp read
              exact .inl ⟨_, (Option.some.inj shape).symm⟩
          | cons chunk rest =>
              exact .inr (.inr ⟨chunk, rest, rfl, rfl, (Option.some.inj read).symm⟩)

theorem consumeLogStream_cons
    (chunk : List UInt8)
    (chunks : List (List UInt8))
    (stream : LogEntryStream) :
    DockerEnvHandle.consumeLogStream dateParse (chunk :: chunks) stream =
      DockerEnvHandle.consumeLogStream dateParse [chunk] stream ++
        DockerEnvHandle.consumeLogStream dateParse chunks stream := by
  simp [DockerEnvHandle.consumeLogStream]

/-- What the reader yields was the next of what remained. -/
theorem Delivers.read
    (delivers : Delivers dateParse capacity output before)
    (read : before.read dateParse = some after) :
    Delivers dateParse capacity output after := by
  refine ⟨delivers.sound.read read, ?_⟩
  rw [← delivers.whole]
  rcases read_cases read with
    ⟨next, rfl⟩ | ⟨chunk, rest, _, shape, rfl⟩ | ⟨chunk, rest, isSecond, shape, rfl⟩
  · rfl
  · simp only [remaining, deliver, shape, List.cons_append]
    rw [consumeLogStream_cons chunk (rest ++ _)]
    simp only [List.append_assoc]
  · -- the first stream has come to its end, so nothing of it remains
    obtain ⟨isClosed, noStdout⟩ := delivers.sound.drained (by rw [isSecond]; simp)
    have noPending := delivers.sound.written isClosed
    simp only [remaining, deliver, shape, noStdout, noPending, List.cons_append]
    rw [consumeLogStream_cons chunk (rest ++ _)]
    simp [chunksOf, DockerEnvHandle.consumeLogStream]

theorem Delivers.moves
    {side : LogSide}
    (delivers : Delivers dateParse capacity output before)
    (moves : Moves dateParse capacity before side after) :
    Delivers dateParse capacity output after := by
  cases side with
  | writer =>
      obtain ⟨sameRemaining, sameDelivered⟩ := @remaining_of_write dateParse _ _ _ moves
      refine ⟨delivers.sound.write moves, ?_⟩
      rw [sameRemaining, sameDelivered, delivers.whole]
  | reader => exact delivers.read moves

/-- When `logs` has returned, it has yielded everything. -/
theorem Delivers.all
    (delivers : Delivers dateParse capacity output pipes)
    (returned : pipes.reading = none) :
    pipes.delivered = capturedOf dateParse output := by
  have sound := delivers.sound
  obtain ⟨isClosed, noStdout⟩ := sound.drained (by rw [returned]; simp)
  have nothing : pipes.remaining dateParse = [] := by
    simp [remaining, noStdout, sound.written isClosed, sound.returned returned, chunksOf,
      DockerEnvHandle.consumeLogStream]
  rw [← delivers.whole, nothing, List.append_nil]

/-- The reader only adds to what it has yielded. -/
theorem delivered_of_moves
    {side : LogSide}
    (moves : Moves dateParse capacity before side after) :
    before.delivered <+: after.delivered := by
  cases side with
  | writer =>
      rw [(@remaining_of_write dateParse _ _ _ moves).2]
  | reader =>
      rcases read_cases moves with ⟨next, rfl⟩ | ⟨chunk, rest, _, _, rfl⟩ | ⟨chunk, rest, _, _, rfl⟩
      · exact List.prefix_rfl
      · exact List.prefix_append ..
      · exact List.prefix_append ..

end LogPipes

/-- The server with its disk, and the collections of logs that are under way. -/
structure LogDelivery where
  data : DataFiles
  /-- What a consumer reads from, by its position, once it has called `logs`. -/
  pipes : Nat → Option LogPipes
  /-- How many of the yielded entries a consumer has taken. -/
  taken : Nat → Nat

/-- An event of the server, or of a collection of logs. -/
inductive DeliveryEvent where
  | file (event : FileEvent)
  /-- A consumer calls `logs`, which spawns `docker logs`. -/
  | spawn (position : Nat)
  | move (position : Nat) (side : LogSide)

/-- The events of the server and of its files. -/
def DeliveryEvent.file? : DeliveryEvent → Option FileEvent
  | .file event => some event
  | _ => none

namespace LogDelivery

/-- Nothing has been called; the disk is as the server finds it. -/
def initial (tree : FileTree PosixPath.Segment) : LogDelivery where
  data := .initial tree
  pipes := fun _ => none
  taken := fun _ => 0

/-- A consumer reads from other pipes. -/
def withPipes (delivery : LogDelivery) (position : Nat) (pipes : LogPipes) :
    LogDelivery :=
  { delivery with
    pipes := Function.update delivery.pipes position (some pipes) }

/-- What `logs` has yielded to a consumer. -/
def yielded (delivery : LogDelivery) (position : Nat) : List CapturedLog :=
  match delivery.pipes position with
  | some pipes => pipes.delivered
  | none => []

/-- `logs` has returned, and the consumer has taken everything. -/
def HasCollected (delivery : LogDelivery) (position : Nat) : Prop :=
  ∃ pipes,
    delivery.pipes position = some pipes ∧ pipes.reading = none ∧
      delivery.taken position = pipes.delivered.length

/-- A consumer of logs writes what is yielded next. -/
def Takes (delivery : LogDelivery) : FileEvent → (Nat → Nat) → Prop
  | .write position .log entry, taken =>
      (delivery.yielded position)[delivery.taken position]? = some entry.captured ∧
        taken = Function.update delivery.taken position (delivery.taken position + 1)
  | _, taken => taken = delivery.taken

/-- One event; `output` is what a container prints for `docker logs`. -/
def Step
    (config : TaskServerConfig)
    (mayFail : TaskOp → Bool)
    (layout : DataLayout)
    (dateParse : DateParser)
    (capacity : Nat)
    (output : TaskRunHandle → List LogChunk)
    (before : LogDelivery)
    (event : DeliveryEvent)
    (after : LogDelivery) :
    Prop :=
  match event with
  | .file event =>
      DataFiles.Step config mayFail layout before.data event after.data ∧
        before.Takes event after.taken ∧ after.pipes = before.pipes
  | .spawn position =>
      ∃ consumer,
        before.data.files.consumers[position]? = some consumer ∧
          consumer.kind = .log ∧ before.pipes position = none ∧
          after = before.withPipes position (.start (output consumer.runHandle))
  | .move position side =>
      ∃ pipes moved,
        before.pipes position = some pipes ∧
          -- the generator goes on when its last entry has been taken
          (side = .reader → before.taken position = pipes.delivered.length) ∧
          pipes.Moves dateParse capacity side moved ∧
          after = before.withPipes position moved

section Invariant

variable {config : TaskServerConfig}
variable {mayFail : TaskOp → Bool}
variable {layout : DataLayout}
variable {dateParse : DateParser}
variable {capacity : Nat}
variable {output : TaskRunHandle → List LogChunk}
variable {found : FileTree PosixPath.Segment}
variable {events : List FileEvent}
variable {before after : LogDelivery}

/-- A consumer has written what it has taken, and has taken what has been yielded. -/
structure Collects
    (layout : DataLayout)
    (found : FileTree PosixPath.Segment)
    (dateParse : DateParser)
    (capacity : Nat)
    (output : TaskRunHandle → List LogChunk)
    (events : List FileEvent)
    (delivery : LogDelivery) :
    Prop where
  represents : DataFiles.Represents layout found delivery.data
  writes : delivery.data.files.WritesKept events
  pipes :
    ∀ position pipes,
      delivery.pipes position = some pipes →
      ∃ consumer,
        delivery.data.files.consumers[position]? = some consumer ∧
          consumer.kind = .log ∧
          pipes.Delivers dateParse capacity (output consumer.runHandle)
  written :
    ∀ position,
      (writtenBy .log position events).map LogEntry.captured =
        (delivery.yielded position).take (delivery.taken position)
  within :
    ∀ position, delivery.taken position ≤ (delivery.yielded position).length

/-- An event that is no write of a log entry writes none. -/
theorem takes_cases
    {event : FileEvent}
    {taken : Nat → Nat}
    (takes : before.Takes event taken) :
    (∃ position entry, event = .write position .log entry ∧
        (before.yielded position)[before.taken position]? = some entry.captured ∧
        taken = Function.update before.taken position (before.taken position + 1)) ∨
      (taken = before.taken ∧
        ∀ position, writtenBy .log position (events ++ [event]) =
          writtenBy .log position events) := by
  have notWritten (noEntry : ∀ position, event.entryBy .log position = none)
      (position : Nat) :
      writtenBy .log position (events ++ [event]) =
        writtenBy .log position events := by
    rw [RunFiles.writtenBy_snoc, noEntry]
    exact List.append_nil _
  cases event with
  | write position kind entry =>
      cases kind with
      | log => exact .inl ⟨position, entry, rfl, takes⟩
      | metric =>
          refine .inr ⟨takes, notWritten fun _ => FileEvent.entryBy_of_ne entry ?_⟩
          rintro ⟨⟨⟩, _⟩
  | turn turn => exact .inr ⟨takes, notWritten fun _ => rfl⟩
  | ensureDirectory position => exact .inr ⟨takes, notWritten fun _ => rfl⟩
  | openFile position => exact .inr ⟨takes, notWritten fun _ => rfl⟩
  | finish position => exact .inr ⟨takes, notWritten fun _ => rfl⟩

theorem Collects.file
    {event : FileEvent}
    (collects :
      Collects layout found dateParse capacity output events before)
    (stepped : DataFiles.Step config mayFail layout before.data event after.data)
    (takes : before.Takes event after.taken)
    (samePipes : after.pipes = before.pipes) :
    Collects layout found dateParse capacity output (events ++ [event]) after := by
  have sameYielded (position : Nat) : after.yielded position = before.yielded position := by
    rw [yielded, samePipes]
    rfl
  refine
    { represents := collects.represents.step stepped
      writes := collects.writes.step stepped.1
      pipes := ?_
      written := ?_
      within := ?_ }
  · intro position pipes reads
    rw [samePipes] at reads
    obtain ⟨consumer, present, isLog, delivers⟩ := collects.pipes position pipes reads
    obtain ⟨stage, present⟩ := RunFiles.consumer_of_step stepped.1 present
    exact ⟨_, present, isLog, delivers⟩
  · intro position
    rw [sameYielded]
    rcases @takes_cases events before event after.taken takes with
      ⟨writer, entry, rfl, isNext, taken⟩ | ⟨taken, sameWrites⟩
    · rw [taken, RunFiles.writtenBy_snoc, List.map_append, collects.written]
      by_cases same : position = writer
      · subst same
        rw [FileEvent.entryBy_self, Function.update_self, List.take_add_one, isNext]
        rfl
      · rw [FileEvent.entryBy_of_ne entry fun own => same own.2.symm,
          Function.update_of_ne same]
        exact List.append_nil _
    · rw [taken, sameWrites, collects.written]
  · intro position
    rw [sameYielded]
    rcases @takes_cases events before event after.taken takes with
      ⟨writer, entry, rfl, isNext, taken⟩ | ⟨taken, _⟩
    · rw [taken]
      by_cases same : position = writer
      · subst same
        rw [Function.update_self]
        exact (List.getElem?_eq_some_iff.mp isNext).1
      · rw [Function.update_of_ne same]
        exact collects.within position
    · rw [taken]
      exact collects.within position

/-- A collection begins or goes on, and the server does not. -/
theorem Collects.piped
    {position : Nat}
    {consumer : Consumer}
    {moved : LogPipes}
    (collects :
      Collects layout found dateParse capacity output events before)
    (present : before.data.files.consumers[position]? = some consumer)
    (isLog : consumer.kind = .log)
    (delivers : moved.Delivers dateParse capacity (output consumer.runHandle))
    (grows : before.yielded position <+: moved.delivered) :
    Collects layout found dateParse capacity output events
      (before.withPipes position moved) := by
  have own : (before.withPipes position moved).pipes position = some moved :=
    Function.update_self ..
  have others {other : Nat} (isOther : other ≠ position) :
      (before.withPipes position moved).pipes other = before.pipes other :=
    Function.update_of_ne isOther ..
  have yields (other : Nat) :
      before.yielded other <+: (before.withPipes position moved).yielded other := by
    by_cases same : other = position
    · subst same
      rw [yielded.eq_def (before.withPipes other moved), own]
      exact grows
    · rw [yielded.eq_def (before.withPipes position moved), others same]
      exact List.prefix_rfl
  refine
    { represents := collects.represents
      writes := collects.writes
      pipes := ?_
      written := ?_
      within := fun other => (collects.within other).trans (yields other).length_le }
  · intro other pipes reads
    by_cases same : other = position
    · subst same
      rw [own] at reads
      cases reads
      exact ⟨consumer, present, isLog, delivers⟩
    · rw [others same] at reads
      exact collects.pipes other pipes reads
  · intro other
    obtain ⟨more, grown⟩ := yields other
    rw [collects.written other, ← grown]
    exact (List.take_append_of_le_length (collects.within other)).symm

theorem Collects.step
    {event : DeliveryEvent}
    (collects :
      Collects layout found dateParse capacity output events before)
    (stepped :
      Step config mayFail layout dateParse capacity output before event after) :
    Collects layout found dateParse capacity output
      (events ++ event.file?.toList) after := by
  cases event with
  | file event =>
      obtain ⟨stepped, takes, samePipes⟩ := stepped
      exact collects.file stepped takes samePipes
  | spawn position =>
      obtain ⟨consumer, present, isLog, isFirst, rfl⟩ := stepped
      change Collects _ _ _ _ _ (events ++ []) _
      rw [List.append_nil]
      refine collects.piped present isLog .start ?_
      simp [yielded, isFirst]
  | move position side =>
      obtain ⟨pipes, moved, reads, -, moves, rfl⟩ := stepped
      change Collects _ _ _ _ _ (events ++ []) _
      rw [List.append_nil]
      obtain ⟨consumer, present, isLog, delivers⟩ := collects.pipes position pipes reads
      refine collects.piped present isLog (delivers.moves moves) ?_
      simpa [yielded, reads] using LogPipes.delivered_of_moves moves

/-- What a consumer has written is a prefix of the output of its own container. -/
theorem Collects.shown
    {position : Nat}
    {consumer : Consumer}
    (collects :
      Collects layout found dateParse capacity output events before)
    (present : before.data.files.consumers[position]? = some consumer) :
    (writtenBy .log position events).map LogEntry.captured <+:
      capturedOf dateParse (output consumer.runHandle) := by
  rw [collects.written position, yielded]
  cases reads : before.pipes position with
  | none =>
      rw [List.take_nil]
      exact List.nil_prefix
  | some pipes =>
      obtain ⟨reader, isReader, -, delivers⟩ := collects.pipes position pipes reads
      rw [present] at isReader
      cases isReader
      rw [← delivers.whole]
      exact (List.take_prefix _ _).trans (List.prefix_append _ _)

/-- A consumer that has collected everything has written the whole output. -/
theorem Collects.whole
    {position : Nat}
    {consumer : Consumer}
    (collects :
      Collects layout found dateParse capacity output events before)
    (present : before.data.files.consumers[position]? = some consumer)
    (collected : before.HasCollected position) :
    (writtenBy .log position events).map LogEntry.captured =
      capturedOf dateParse (output consumer.runHandle) := by
  obtain ⟨pipes, reads, returned, taken⟩ := collected
  obtain ⟨reader, isReader, -, delivers⟩ := collects.pipes position pipes reads
  rw [present] at isReader
  cases isReader
  rw [collects.written position, yielded, reads, taken, List.take_length]
  exact delivers.all returned

theorem collects_of_run
    {labels : List DeliveryEvent}
    {final : LogDelivery}
    (ready : DataFiles.Ready layout found)
    (run :
      Run (Step config mayFail layout dateParse capacity output) (.initial found)
        labels final) :
    Collects layout found dateParse capacity output
      (labels.filterMap DeliveryEvent.file?) final := by
  induction run with
  | nil =>
      exact
        { represents := DataFiles.represents_initial ready
          writes := RunFiles.writesKept_initial
          pipes := by
            intro position pipes reads
            cases reads
          written := fun _ => rfl
          within := fun _ => Nat.le_refl _ }
  | @snoc middle final labels label earlier last inductionHypothesis =>
      have collects := inductionHypothesis.step last
      rw [List.filterMap_append]
      cases isFile : label.file? <;> simpa [isFile] using collects

end Invariant

end LogDelivery

/-! ## Lines -/

/-- The output is lines, which are cut at their ends. -/
structure PrintsLines
    (output : List LogChunk)
    (lines : LogEntryStream → List LogLine) :
    Prop where
  cutting : ∀ stream, (chunksOf stream output).flatten = writtenText (lines stream)
  nonempty : ∀ chunk ∈ output, chunk.bytes ≠ []
  atLineEnds : ∀ stream, (chunksOf stream output).IsChain MeetAtLineEnd

/-- No content of the lines has a separator that a search takes for the end of a line. -/
def HasNoSeparators (lines : LogEntryStream → List LogLine) : Prop :=
  ∀ stream, ∀ line ∈ lines stream, ∀ char ∈ Utf8.decode line.content,
    isSeparator char = false

/-- The entries of the lines, stream by stream. -/
def lineEntries
    (dateParse : DateParser)
    (lines : LogEntryStream → List LogLine) :
    List CapturedLog :=
  (lines .stdout).map (LogLine.entry dateParse .stdout) ++
    (lines .stderr).map (LogLine.entry dateParse .stderr)

namespace PrintsLines

variable {output : List LogChunk}
variable {lines : LogEntryStream → List LogLine}

/-- What is yielded of such an output are its lines. -/
theorem capturedOf_eq
    (prints : PrintsLines output lines)
    (dateParse : DateParser) :
    capturedOf dateParse output = lineEntries dateParse lines := by
  have ofStream (stream : LogEntryStream) :
      DockerEnvHandle.consumeLogStream dateParse (chunksOf stream output) stream =
        (lines stream).map (LogLine.entry dateParse stream) := by
    have nonempty : ∀ bytes ∈ chunksOf stream output, bytes ≠ [] := by
      intro bytes member
      obtain ⟨chunk, listed, rfl⟩ := List.mem_map.mp member
      exact prints.nonempty chunk (List.mem_of_mem_filter listed)
    rw [DockerEnvHandle.consumeLogStream_eq,
      flatMap_rows nonempty (prints.atLineEnds stream), prints.cutting, rows_writtenText,
      List.map_map]
    exact List.map_congr_left fun line _ => DockerEnvHandle.parseRawLogRow_row line
  rw [capturedOf, ofStream, ofStream]
  rfl

theorem hasNoSeparator
    (prints : PrintsLines output lines)
    (noSeparators : HasNoSeparators lines)
    {dateParse : DateParser}
    {entries : List LogEntry}
    (shown : entries.map LogEntry.captured <+: capturedOf dateParse output) :
    ∀ entry ∈ entries, entry.HasNoSeparator := by
  intro entry member
  have listed := shown.subset (List.mem_map_of_mem member)
  rw [prints.capturedOf_eq] at listed
  have ofStream (stream : LogEntryStream)
      (isLine : entry.captured ∈ (lines stream).map (LogLine.entry dateParse stream)) :
      entry.HasNoSeparator := by
    obtain ⟨line, isLine, same⟩ := List.mem_map.mp isLine
    have content : entry.content = String.ofList (Utf8.decode line.content) :=
      (congrArg CapturedLog.content same).symm
    rw [LogEntry.HasNoSeparator, content, String.toList_ofList]
    exact noSeparators stream line isLine
  rcases List.mem_append.mp listed with onStdout | onStderr
  · exact ofStream .stdout onStdout
  · exact ofStream .stderr onStderr

end PrintsLines

/-- The data on disk, with the entries as JSON lines. -/
def jsonLayout
    (cwd workDir : List Char)
    (format : Json.NumberFormat Rat) :
    DataLayout where
  cwd := cwd
  workDir := workDir
  line
    | .log, entry => entry.line format.integers ++ ['\n']
    | .metric, entry => MetricEntry.codec.line format entry ++ ['\n']

/--
Whatever runs beside the collections, and whatever fails: the log file of a run
has a prefix of what `docker logs` has written for this run and no other, and
all of it once the collection is through.  Where the output comes line by line,
these are the printed lines, and unless their contents have separators, a search
of the file shows their entries.
-/
theorem logFiles_showOutput
    (config : TaskServerConfig)
    (mayFail : TaskOp → Bool)
    (cwd workDir : List Char)
    (format : Json.NumberFormat Rat)
    (dateParse : DateParser)
    (capacity : Nat)
    (output : TaskRunHandle → List LogChunk)
    (found : FileTree PosixPath.Segment)
    (ready : DataFiles.Ready (jsonLayout cwd workDir format) found)
    (labels : List DeliveryEvent)
    (final : LogDelivery)
    (run :
      Run
        (LogDelivery.Step config mayFail (jsonLayout cwd workDir format)
          dateParse capacity output)
        (.initial found) labels final)
    (runHandle : TaskRunHandle)
    (text : List Char)
    (isStored :
      final.data.tree.read
          (PosixPath.resolved cwd (buildLogFilePath workDir runHandle).2) =
        some text) :
    ∃ (position : Nat) (consumer : Consumer) (entries : List LogEntry),
      final.data.files.consumers[position]? = some consumer ∧
        consumer.runHandle.taskId = runHandle.taskId ∧
        consumer.runHandle.runId = runHandle.runId ∧
        text = consumeLogGenerator format.integers entries ∧
        entries.map LogEntry.captured <+:
          capturedOf dateParse (output consumer.runHandle) ∧
        (final.HasCollected position →
          entries.map LogEntry.captured =
            capturedOf dateParse (output consumer.runHandle)) ∧
        ∀ lines,
          PrintsLines (output consumer.runHandle) lines →
          capturedOf dateParse (output consumer.runHandle) =
              lineEntries dateParse lines ∧
            (HasNoSeparators lines →
              ∀ regExp dto paging,
                searchLogFile regExp format.integers text dto paging =
                  searchLog regExp entries dto paging) := by
  have collects := LogDelivery.collects_of_run ready run
  have stored := collects.represents.stored .log runHandle.taskId runHandle.runId
  obtain ⟨entries, isKept, rfl⟩ := Option.map_eq_some_iff.mp (stored.symm.trans isStored)
  obtain ⟨position, ⟨kind, consumerHandle, stage⟩, present, rfl, isTask, isRun⟩ :=
    collects.writes.consumed .log runHandle.taskId runHandle.runId (by rw [isKept]; simp)
  rw [← isTask, ← isRun] at isKept
  obtain rfl := (collects.writes.kept position _ present).eq_written isKept
  have shown := collects.shown present
  refine ⟨position, _, _, present, isTask, isRun, rfl, shown, collects.whole present, ?_⟩
  intro lines prints
  refine ⟨prints.capturedOf_eq dateParse, fun noSeparators regExp dto paging => ?_⟩
  exact searchLogFile_eq_searchLog (prints.hasNoSeparator noSeparators shown) dto paging

/-- The event writes an entry of a log. -/
def FileEvent.writesLog : FileEvent → Bool
  | .write _ .log _ => true
  | _ => false

/-- Events of the server alone, as events beside the collections. -/
theorem LogDelivery.run_of_files
    {config : TaskServerConfig}
    {mayFail : TaskOp → Bool}
    {layout : DataLayout}
    {dateParse : DateParser}
    {capacity : Nat}
    {output : TaskRunHandle → List LogChunk}
    (delivery : LogDelivery)
    {events : List FileEvent}
    {data : DataFiles}
    (run : Run (DataFiles.Step config mayFail layout) delivery.data events data)
    (noLog : ∀ event ∈ events, event.writesLog = false) :
    Run (Step config mayFail layout dateParse capacity output) delivery
      (events.map .file) { delivery with data := data } := by
  induction run with
  | nil => exact .nil
  | @snoc middle final events event earlier last inductionHypothesis =>
      rw [List.map_append]
      refine .snoc (inductionHypothesis fun other listed =>
        noLog other (List.mem_append_left _ listed)) ⟨last, ?_, rfl⟩
      have isOther := noLog event (List.mem_append_right _ (.head _))
      cases event with
      | write position kind entry =>
          cases kind with
          | log => cases isOther
          | metric => rfl
      | _ => rfl

/-- A container whose one line is cut inside its content. -/
def printedChunks : List LogChunk :=
  [⟨.stdout, sampleLine.row.dropLast⟩, ⟨.stdout, [0x62, newline]⟩]

/-- Only the timestamp of the line is a date. -/
def printedDates : DateParser := fun units =>
  if units = codeUnits "1970-01-01".toList then some 0 else none

/-- The server starts a run. -/
def launchEvents : List FileEvent :=
  (firedLabels ++ launchedLabels ++ openedLabels).map Prod.fst

/-- The row before the cut. -/
def firstEntry : LogEntry :=
  ⟨.stdout, some 0, "a"⟩

/-- The row after the cut, which has no time. -/
def secondEntry : LogEntry :=
  ⟨.stdout, none, "b"⟩

/-- Both chunks are printed, read and written. -/
def printedLabels : List DeliveryEvent :=
  launchEvents.map .file ++
    [.spawn 0, .move 0 .writer, .move 0 .reader, .file (.write 0 .log firstEntry),
      .move 0 .writer, .move 0 .reader, .file (.write 0 .log secondEntry)]

/-- The disk of the example. -/
def printedLayout : DataLayout :=
  jsonLayout "/".toList "/srv/prescott".toList Json.fractionFormat

/-- The steps of the example. -/
abbrev PrintedStep : LogDelivery → DeliveryEvent → LogDelivery → Prop :=
  LogDelivery.Step lenientServer (fun _ => false) printedLayout printedDates 1
    fun _ => printedChunks

/-- The text of both entries. -/
def printedText : List Char :=
  consumeLogGenerator Json.fractionFormat.integers [firstEntry, secondEntry]

/-- The first consumer has written the entry to the disk of the example. -/
def LogDelivery.wrote
    (delivery : LogDelivery)
    (files : RunFiles)
    (entry : LogEntry)
    (taken : Nat) :
    LogDelivery :=
  { delivery with
    data :=
      ⟨files, (delivery.data.onDisk printedLayout (.write 0 .log entry)).1,
        (delivery.data.onDisk printedLayout (.write 0 .log entry)).2⟩
    taken := Function.update delivery.taken 0 taken }

theorem exists_printedRun :
    ∃ final,
      Run PrintedStep (.initial .empty) printedLabels final ∧
        printedLayout.stored final.data.files.calls.shared .log 1 1 =
          some printedText := by
  have executed :
      ∃ files consumer,
        launchEvents.foldlM
            (fun files event => RunFiles.step? lenientServer (fun _ => false) files event)
            RunFiles.initial =
          some files ∧
        files.consumers[0]? = some consumer ∧ consumer.kind = .log ∧
        ∃ first second,
          files.step? lenientServer (fun _ => false) (.write 0 .log firstEntry) =
            some first ∧
          first.step? lenientServer (fun _ => false) (.write 0 .log secondEntry) =
            some second ∧
          printedLayout.stored second.calls.shared .log 1 1 = some printedText :=
    ⟨_, _, rfl, rfl, rfl, _, _, rfl, rfl, rfl⟩
  obtain ⟨files, consumer, executed, present, isLog, first, second, firstStep, secondStep,
    isStored⟩ := executed
  obtain ⟨data, run, rfl⟩ := DataFiles.exists_run printedLayout (.initial .empty) executed
  have noLog : launchEvents.all (fun event => !event.writesLog) = true := rfl
  let launched : LogDelivery := { LogDelivery.initial .empty with data }
  let spawned := launched.withPipes 0 (.start printedChunks)
  let printed :=
    spawned.withPipes 0
      ⟨[⟨.stdout, [0x62, newline]⟩], false, [sampleLine.row.dropLast], [], some .stdout, []⟩
  let yielded :=
    printed.withPipes 0
      ⟨[⟨.stdout, [0x62, newline]⟩], false, [], [], some .stdout, [firstEntry.captured]⟩
  let stored := yielded.wrote first firstEntry 1
  let printedRest :=
    stored.withPipes 0
      ⟨[], false, [[0x62, newline]], [], some .stdout, [firstEntry.captured]⟩
  let yieldedRest :=
    printedRest.withPipes 0
      ⟨[], false, [], [], some .stdout, [firstEntry.captured, secondEntry.captured]⟩
  let storedRest := yieldedRest.wrote second secondEntry 2
  have launch : Run PrintedStep (.initial .empty) (launchEvents.map .file) launched :=
    LogDelivery.run_of_files (.initial .empty) run fun event listed => by
      simpa using List.all_eq_true.mp noLog event listed
  have spawns : PrintedStep launched (.spawn 0) spawned :=
    ⟨consumer, present, isLog, rfl, rfl⟩
  have prints : PrintedStep spawned (.move 0 .writer) printed := by
    refine ⟨_, _, rfl, ?_, rfl, rfl⟩
    rintro ⟨⟩
  have yields : PrintedStep printed (.move 0 .reader) yielded :=
    ⟨_, _, rfl, fun _ => rfl, rfl, rfl⟩
  have stores : PrintedStep yielded (.file (.write 0 .log firstEntry)) stored :=
    ⟨⟨firstStep, rfl⟩, ⟨rfl, rfl⟩, rfl⟩
  have printsRest : PrintedStep stored (.move 0 .writer) printedRest := by
    refine ⟨_, _, rfl, ?_, rfl, rfl⟩
    rintro ⟨⟩
  have yieldsRest : PrintedStep printedRest (.move 0 .reader) yieldedRest :=
    ⟨_, _, rfl, fun _ => rfl, rfl, rfl⟩
  have storesRest : PrintedStep yieldedRest (.file (.write 0 .log secondEntry)) storedRest :=
    ⟨⟨secondStep, rfl⟩, ⟨rfl, rfl⟩, rfl⟩
  have launchedRun := (((launch.snoc spawns).snoc prints).snoc yields).snoc stores
  exact ⟨storedRest, ((launchedRun.snoc printsRest).snoc yieldsRest).snoc storesRest, isStored⟩

/-- Both rows of the cut line are in the log file of the run. -/
theorem logFiles_showOutput_printed :
    ∃ (final : LogDelivery) (entries : List LogEntry),
      Run PrintedStep (.initial .empty) printedLabels final ∧
        printedText = consumeLogGenerator Json.fractionFormat.integers entries ∧
        final.data.tree.read
            (PosixPath.resolved "/".toList
              (buildLogFilePath "/srv/prescott".toList ⟨1, 1, .finite 1⟩).2) =
          some printedText ∧
        entries.map LogEntry.captured <+: capturedOf printedDates printedChunks := by
  have ready : DataFiles.Ready printedLayout .empty := by
    refine ⟨fun _ _ _ _ => rfl, fun kind taskId => ?_⟩
    rw [DataLayout.directory_eq]
    rfl
  obtain ⟨final, run, isStored⟩ := exists_printedRun
  have read :=
    (LogDelivery.collects_of_run ready run).represents.stored .log 1 1
  obtain ⟨_, _, entries, _, _, _, text, shown, _⟩ :=
    logFiles_showOutput lenientServer (fun _ => false) "/".toList "/srv/prescott".toList
      Json.fractionFormat printedDates 1 (fun _ => printedChunks) .empty ready
      printedLabels final run ⟨1, 1, .finite 1⟩ _ (read.trans isStored)
  exact ⟨final, entries, run, text, read.trans isStored, shown⟩

end Prescott
