import Prescott.LogCapture
import Prescott.TransitionSystem

namespace Prescott

/-!
# The two pipes of a log collection

`docker logs --follow` writes the two streams of a container into two pipes of
one capacity, and `logs` reads the first pipe to its end before it reads the
second one.  The writer waits while the pipe it writes to is full, so a second
pipe that nobody reads may stop both sides.
-/

/-- What `docker logs` writes to one of its streams at once. -/
structure LogChunk where
  stream : LogEntryStream
  bytes : List UInt8
  deriving Repr, DecidableEq

/-- No row stands in the chunk, so it brings no entry. -/
def LogChunk.IsBlank (chunk : LogChunk) : Prop :=
  rows chunk.bytes = []

/-- The chunks among these that are written to the second stream. -/
def stderrOf (chunks : List LogChunk) : List (List UInt8) :=
  (chunks.filter fun chunk => chunk.stream = .stderr).map LogChunk.bytes

/-- The two pipes and what their two sides still have to do. -/
structure LogPipes where
  /-- The chunks that are not written yet. -/
  pending : List LogChunk
  /-- The writer has closed both streams. -/
  closed : Bool
  stdout : List (List UInt8)
  stderr : List (List UInt8)
  /-- The stream that is consumed; `none` when `logs` has returned. -/
  reading : Option LogEntryStream
  delivered : List CapturedLog
  deriving Repr, DecidableEq

/-- The sides of the pipes. -/
inductive LogSide where
  | writer
  | reader
  deriving Repr, DecidableEq

namespace LogPipes

/-- Nothing is written yet, and `logs` consumes the first stream. -/
def start (output : List LogChunk) : LogPipes where
  pending := output
  closed := false
  stdout := []
  stderr := []
  reading := some .stdout
  delivered := []

/-- The chunks that wait in a pipe. -/
def held (pipes : LogPipes) : LogEntryStream → List (List UInt8)
  | .stdout => pipes.stdout
  | .stderr => pipes.stderr

/-- A chunk is put into the pipe of its stream. -/
def put (pipes : LogPipes) (chunk : LogChunk) : LogPipes :=
  match chunk.stream with
  | .stdout => { pipes with stdout := pipes.stdout ++ [chunk.bytes] }
  | .stderr => { pipes with stderr := pipes.stderr ++ [chunk.bytes] }

/-- The writer writes the next chunk into a pipe with room, and closes at last. -/
def write (capacity : Nat) (pipes : LogPipes) : Option LogPipes :=
  match pipes.pending with
  | [] =>
      if pipes.closed then none else some { pipes with closed := true }
  | chunk :: rest =>
      if (pipes.held chunk.stream).length < capacity then
        some (put { pipes with pending := rest } chunk)
      else
        none

/-- The reader takes the first chunk of a pipe and yields its entries. -/
def deliver
    (dateParse : DateParser)
    (stream : LogEntryStream)
    (chunk : List UInt8)
    (pipes : LogPipes) :
    LogPipes :=
  { pipes with
    delivered :=
      pipes.delivered ++
        DockerEnvHandle.consumeLogStream dateParse [chunk] stream }

/-- `logs` consumes the first stream to its end and then the second one. -/
def read (dateParse : DateParser) (pipes : LogPipes) : Option LogPipes :=
  match pipes.reading with
  | some .stdout =>
      match pipes.stdout with
      | chunk :: rest =>
          some (deliver dateParse .stdout chunk { pipes with stdout := rest })
      | [] =>
          if pipes.closed then
            some { pipes with reading := some .stderr }
          else
            none
  | some .stderr =>
      match pipes.stderr with
      | chunk :: rest =>
          some (deliver dateParse .stderr chunk { pipes with stderr := rest })
      | [] =>
          if pipes.closed then some { pipes with reading := none } else none
  | none => none

/-- The move of a side, if it can move. -/
def move
    (dateParse : DateParser)
    (capacity : Nat)
    (pipes : LogPipes) :
    LogSide → Option LogPipes
  | .writer => pipes.write capacity
  | .reader => pipes.read dateParse

/-- A side moves. -/
def Moves
    (dateParse : DateParser)
    (capacity : Nat)
    (before : LogPipes)
    (side : LogSide)
    (after : LogPipes) :
    Prop :=
  before.move dateParse capacity side = some after

/-- The entries that the consumer of `logs` has not got. -/
def undelivered (dateParse : DateParser) (pipes : LogPipes) :
    List CapturedLog :=
  DockerEnvHandle.consumeLogStream dateParse pipes.stdout .stdout ++
    DockerEnvHandle.consumeLogStream dateParse pipes.stderr .stderr ++
    pipes.pending.flatMap fun chunk =>
      DockerEnvHandle.consumeLogStream dateParse [chunk.bytes] chunk.stream

end LogPipes

/-- In no reachable state with undelivered entries are both sides stuck. -/
def NeverWedged
    (dateParse : DateParser)
    (capacity : Nat)
    (output : List LogChunk) :
    Prop :=
  ∀ sides pipes,
    Run (LogPipes.Moves dateParse capacity) (.start output) sides pipes →
    pipes.undelivered dateParse ≠ [] →
    ∃ side after, pipes.Moves dateParse capacity side after

/--
After these chunks the next one finds its pipe full for good, because the
first stream is not at its end yet.
-/
def FindsNoRoom
    (capacity : Nat)
    (leading : List LogChunk)
    (chunk : LogChunk) :
    Prop :=
  if capacity = 0 then
    leading = []
  else
    chunk.stream = .stderr ∧ (stderrOf leading).length = capacity

/-- Where a chunk finds no room, only blank chunks are left behind. -/
def LeavesNothingBehind (capacity : Nat) (output : List LogChunk) : Prop :=
  ∀ leading chunk trailing,
    output = leading ++ chunk :: trailing →
    FindsNoRoom capacity leading chunk →
    (∀ bytes ∈ stderrOf leading, rows bytes = []) ∧
      ∀ other ∈ chunk :: trailing, other.IsBlank

namespace LogPipes

variable {dateParse : DateParser}
variable {capacity : Nat}
variable {output : List LogChunk}

theorem consumeLogStream_eq_nil
    {chunks : List (List UInt8)}
    {stream : LogEntryStream} :
    DockerEnvHandle.consumeLogStream dateParse chunks stream = [] ↔
      ∀ bytes ∈ chunks, rows bytes = [] := by
  rw [DockerEnvHandle.consumeLogStream_eq, List.map_eq_nil_iff,
    List.flatMap_eq_nil_iff]

/-- Everything is delivered when only blank chunks are left. -/
theorem undelivered_eq_nil
    {pipes : LogPipes} :
    pipes.undelivered dateParse = [] ↔
      (∀ bytes ∈ pipes.stdout, rows bytes = []) ∧
        (∀ bytes ∈ pipes.stderr, rows bytes = []) ∧
        ∀ chunk ∈ pipes.pending, chunk.IsBlank := by
  simp only [undelivered, List.append_eq_nil_iff, consumeLogStream_eq_nil,
    List.flatMap_eq_nil_iff, List.forall_mem_singleton, and_assoc,
    LogChunk.IsBlank]

/-- What holds of the pipes in every reachable state. -/
structure Sound
    (capacity : Nat)
    (output : List LogChunk)
    (pipes : LogPipes) :
    Prop where
  /-- The second stream is not touched before the first one is at its end. -/
  untouched :
    pipes.reading = some .stdout →
    ∃ leading,
      output = leading ++ pipes.pending ∧
        pipes.stderr = stderrOf leading ∧
        (capacity = 0 → leading = [])
  within : pipes.stderr.length ≤ capacity
  drained :
    pipes.reading ≠ some .stdout →
    pipes.closed = true ∧ pipes.stdout = []
  written : pipes.closed = true → pipes.pending = []
  returned : pipes.reading = none → pipes.stderr = []

theorem stderrOf_snoc_stdout
    (leading : List LogChunk)
    (bytes : List UInt8) :
    stderrOf (leading ++ [⟨.stdout, bytes⟩]) = stderrOf leading := by
  simp [stderrOf]

theorem stderrOf_snoc_stderr
    (leading : List LogChunk)
    (bytes : List UInt8) :
    stderrOf (leading ++ [⟨.stderr, bytes⟩]) =
      stderrOf leading ++ [bytes] := by
  simp [stderrOf]

theorem Sound.start : Sound capacity output (start output) where
  untouched _ := ⟨[], rfl, rfl, fun _ => rfl⟩
  within := Nat.zero_le _
  drained other := absurd rfl other
  written isClosed := by cases isClosed
  returned isNone := by cases isNone

/-- While something is left to write, the first stream is consumed. -/
theorem Sound.isFirst
    {pipes : LogPipes}
    (sound : Sound capacity output pipes)
    (left : pipes.pending ≠ []) :
    pipes.reading = some .stdout ∧ pipes.closed = false := by
  have notClosed : pipes.closed = false := by
    by_contra isClosed
    exact left (sound.written (Bool.eq_true_of_not_eq_false isClosed))
  refine ⟨?_, notClosed⟩
  by_contra other
  rw [(sound.drained other).1] at notClosed
  cases notClosed

theorem Sound.write
    {before after : LogPipes}
    (sound : Sound capacity output before)
    (written : before.write capacity = some after) :
    Sound capacity output after := by
  unfold LogPipes.write at written
  split at written
  · rename_i nothing
    split at written
    · cases written
    · cases written
      exact ⟨sound.untouched, sound.within,
        fun other => ⟨rfl, (sound.drained other).2⟩, fun _ => nothing,
        sound.returned⟩
  · rename_i chunk rest pending
    split at written
    · rename_i hasRoom
      cases written
      obtain ⟨isFirst, notClosed⟩ := sound.isFirst (by simp [pending])
      obtain ⟨leading, shape, stderr, _⟩ := sound.untouched isFirst
      have positive : capacity ≠ 0 := by
        rintro rfl
        exact Nat.not_lt_zero _ hasRoom
      have shape : output = (leading ++ [chunk]) ++ rest := by
        rw [shape, pending, List.append_assoc, List.singleton_append]
      obtain ⟨stream, bytes⟩ := chunk
      cases stream with
      | stdout =>
          exact {
            untouched := fun _ => ⟨_, shape,
              stderr.trans (stderrOf_snoc_stdout leading bytes).symm,
              fun zero => absurd zero positive⟩
            within := sound.within
            drained := fun other => absurd isFirst other
            written := fun isClosed => by
              cases notClosed.symm.trans isClosed
            returned := fun isNone => by
              cases isFirst.symm.trans isNone }
      | stderr =>
          exact {
            untouched := fun _ => ⟨_, shape,
              (congrArg (· ++ [bytes]) stderr).trans
                (stderrOf_snoc_stderr leading bytes).symm,
              fun zero => absurd zero positive⟩
            within := by
              change (before.stderr ++ [bytes]).length ≤ capacity
              rw [List.length_append]
              exact hasRoom
            drained := fun other => absurd isFirst other
            written := fun isClosed => by
              cases notClosed.symm.trans isClosed
            returned := fun isNone => by
              cases isFirst.symm.trans isNone }
    · cases written

theorem Sound.read
    {before after : LogPipes}
    (sound : Sound capacity output before)
    (read : before.read dateParse = some after) :
    Sound capacity output after := by
  obtain ⟨pending, closed, stdout, stderr, reading, delivered⟩ := before
  cases reading with
  | none =>
      cases read
  | some stream =>
      cases stream with
      | stdout =>
          cases stdout with
          | nil =>
              obtain ⟨isClosed, shape⟩ :=
                Option.ite_none_right_eq_some.mp read
              cases shape
              exact {
                untouched := fun isFirst => by cases isFirst
                within := sound.within
                drained := fun _ => ⟨isClosed, rfl⟩
                written := sound.written
                returned := fun isNone => by cases isNone }
          | cons chunk rest =>
              cases read
              exact {
                untouched := sound.untouched
                within := sound.within
                drained := fun other => absurd rfl other
                written := sound.written
                returned := fun isNone => by cases isNone }
      | stderr =>
          have drained := sound.drained (by simp)
          cases stderr with
          | nil =>
              obtain ⟨_, shape⟩ := Option.ite_none_right_eq_some.mp read
              cases shape
              exact {
                untouched := fun isFirst => by cases isFirst
                within := sound.within
                drained := fun _ => drained
                written := sound.written
                returned := fun _ => rfl }
          | cons chunk rest =>
              cases read
              exact {
                untouched := fun isFirst => by cases isFirst
                within := Nat.le_of_succ_le sound.within
                drained := fun _ => drained
                written := sound.written
                returned := fun isNone => by cases isNone }

theorem sound_of_run
    {pipes : LogPipes}
    {sides : List LogSide}
    (run : Run (Moves dateParse capacity) (start output) sides pipes) :
    Sound capacity output pipes := by
  refine run.invariant (Sound capacity output) ?_ .start
  intro before side after sound moves
  cases side with
  | writer => exact sound.write moves
  | reader => exact sound.read moves

/-- The pipes are stuck where a chunk finds no room. -/
theorem Sound.of_stuck
    {pipes : LogPipes}
    (sound : Sound capacity output pipes)
    (left : pipes.undelivered dateParse ≠ [])
    (stuck : ∀ side, pipes.move dateParse capacity side = none) :
    ∃ leading chunk trailing,
      output = leading ++ chunk :: trailing ∧
        FindsNoRoom capacity leading chunk ∧
        pipes.stdout = [] ∧
        pipes.stderr = stderrOf leading ∧
        pipes.pending = chunk :: trailing := by
  have cannotRead := stuck .reader
  have cannotWrite := stuck .writer
  obtain ⟨pending, closed, stdout, stderr, reading, delivered⟩ := pipes
  cases reading with
  | none =>
      obtain ⟨isClosed, noStdout⟩ := sound.drained (by simp)
      have noStderr := sound.returned rfl
      have noPending := sound.written isClosed
      simp only at noStdout noStderr noPending
      subst noStdout noStderr noPending
      exact absurd rfl left
  | some stream =>
      cases stream with
      | stderr =>
          have isClosed := (sound.drained (by simp)).1
          simp only at isClosed
          subst isClosed
          cases stderr with
          | nil => cases cannotRead
          | cons chunk rest => cases cannotRead
      | stdout =>
          obtain ⟨leading, shape, noneRead, untouched⟩ := sound.untouched rfl
          simp only at shape noneRead
          cases stdout with
          | cons chunk rest =>
              cases cannotRead
          | nil =>
              cases pending with
              | nil =>
                  -- The writer could close, or the reader could go on.
                  cases closed with
                  | true => cases cannotRead
                  | false => cases cannotWrite
              | cons chunk trailing =>
                  refine ⟨leading, chunk, trailing, shape, ?_, rfl, noneRead,
                    rfl⟩
                  have full :
                      ¬ (held ⟨chunk :: trailing, closed, [], stderr,
                          some .stdout, delivered⟩ chunk.stream).length <
                        capacity := by
                    intro hasRoom
                    cases cannotWrite.symm.trans (if_pos hasRoom)
                  unfold FindsNoRoom
                  split
                  · rename_i zero
                    exact untouched zero
                  · rename_i positive
                    obtain ⟨stream, bytes⟩ := chunk
                    cases stream with
                    | stdout =>
                        exact absurd (Nat.pos_of_ne_zero positive) full
                    | stderr =>
                        refine ⟨rfl, ?_⟩
                        rw [← noneRead]
                        exact Nat.le_antisymm sound.within (Nat.le_of_not_lt full)

/-- The writer gets as far as the room in the second pipe allows. -/
theorem exists_run
    (dateParse : DateParser)
    (leading trailing : List LogChunk)
    (stderr : List (List UInt8))
    (delivered : List CapturedLog)
    (positive : leading ≠ [] → 0 < capacity)
    (fits : stderr.length + (stderrOf leading).length ≤ capacity) :
    ∃ sides later,
      Run (Moves dateParse capacity)
        ⟨leading ++ trailing, false, [], stderr, some .stdout, delivered⟩
        sides
        ⟨trailing, false, [], stderr ++ stderrOf leading, some .stdout,
          later⟩ := by
  induction leading generalizing stderr delivered with
  | nil =>
      refine ⟨[], delivered, ?_⟩
      rw [show stderr ++ stderrOf [] = stderr from List.append_nil _]
      exact .nil
  | cons chunk rest inductionHypothesis =>
      have hasPlace : 0 < capacity := positive (List.cons_ne_nil _ _)
      obtain ⟨stream, bytes⟩ := chunk
      cases stream with
      | stdout =>
          have written :
              Moves dateParse capacity
                ⟨⟨.stdout, bytes⟩ :: (rest ++ trailing), false, [], stderr,
                  some .stdout, delivered⟩ .writer
                ⟨rest ++ trailing, false, [bytes], stderr, some .stdout,
                  delivered⟩ :=
            if_pos hasPlace
          obtain ⟨sides, later, run⟩ :=
            inductionHypothesis stderr _ (fun _ => hasPlace) fits
          have read :
              Run (Moves dateParse capacity)
                ⟨⟨.stdout, bytes⟩ :: (rest ++ trailing), false, [], stderr,
                  some .stdout, delivered⟩ [.writer, .reader] _ :=
            Run.snoc (.single written) rfl
          exact ⟨_, later, read.append run⟩
      | stderr =>
          have counted :
              (stderrOf (⟨.stderr, bytes⟩ :: rest)) = bytes :: stderrOf rest :=
            rfl
          rw [counted, List.length_cons] at fits
          have written :
              Moves dateParse capacity
                ⟨⟨.stderr, bytes⟩ :: (rest ++ trailing), false, [], stderr,
                  some .stdout, delivered⟩ .writer
                ⟨rest ++ trailing, false, [], stderr ++ [bytes],
                  some .stdout, delivered⟩ :=
            if_pos (by
              change stderr.length < capacity
              omega)
          obtain ⟨sides, later, run⟩ :=
            inductionHypothesis (stderr ++ [bytes]) delivered
              (fun _ => hasPlace)
              (by
                rw [List.length_append, List.length_singleton]
                omega)
          rw [List.append_assoc, List.singleton_append, ← counted] at run
          exact ⟨_, later, (Run.single written).append run⟩

/-- Where a chunk finds no room, neither side can move. -/
theorem stuck_of_noRoom
    {leading trailing : List LogChunk}
    {chunk : LogChunk}
    {delivered : List CapturedLog}
    (noRoom : FindsNoRoom capacity leading chunk)
    (side : LogSide) :
    move dateParse capacity
        ⟨chunk :: trailing, false, [], stderrOf leading, some .stdout,
          delivered⟩ side =
      none := by
  cases side with
  | reader => rfl
  | writer =>
      refine if_neg ?_
      unfold FindsNoRoom at noRoom
      split at noRoom
      · rename_i zero
        rw [zero]
        exact Nat.not_lt_zero _
      · obtain ⟨isStderr, full⟩ := noRoom
        rw [isStderr]
        exact Nat.not_lt_of_le full.ge

end LogPipes

/--
Log collection never wedges exactly when a chunk that finds its pipe full
while the first stream is consumed leaves only blank chunks behind; so it
never does when the second pipe has room for all that is written to it.
-/
theorem logs_neverWedged_iff
    (dateParse : DateParser)
    (capacity : Nat)
    (output : List LogChunk) :
    NeverWedged dateParse capacity output ↔
      LeavesNothingBehind capacity output := by
  constructor
  · intro never leading chunk trailing shape noRoom
    have positive : leading ≠ [] → 0 < capacity := by
      intro nonempty
      refine Nat.pos_of_ne_zero fun zero => nonempty ?_
      unfold FindsNoRoom at noRoom
      rwa [if_pos zero] at noRoom
    have fits : (stderrOf leading).length ≤ capacity := by
      unfold FindsNoRoom at noRoom
      split at noRoom
      · rw [noRoom]
        exact Nat.zero_le _
      · exact noRoom.2.le
    obtain ⟨sides, delivered, run⟩ :=
      LogPipes.exists_run dateParse leading (chunk :: trailing)
        [] [] positive (by simpa using fits)
    have nothingLeft :
        LogPipes.undelivered dateParse
            ⟨chunk :: trailing, false, [], stderrOf leading, some .stdout,
              delivered⟩ =
          [] := by
      by_contra left
      obtain ⟨side, after, moves⟩ := never sides _ (shape ▸ run) left
      rw [LogPipes.Moves, LogPipes.stuck_of_noRoom noRoom side] at moves
      cases moves
    exact (LogPipes.undelivered_eq_nil.mp nothingLeft).2
  · intro behind sides pipes run left
    by_contra stuck
    have cannotMove :
        ∀ side, pipes.move dateParse capacity side = none := by
      intro side
      by_contra canMove
      obtain ⟨after, moves⟩ := Option.ne_none_iff_exists'.mp canMove
      exact stuck ⟨side, after, moves⟩
    obtain ⟨leading, chunk, trailing, shape, noRoom, noStdout, stderr,
        pending⟩ :=
      (LogPipes.sound_of_run run).of_stuck left cannotMove
    obtain ⟨blankStderr, blankPending⟩ :=
      behind leading chunk trailing shape noRoom
    refine left (LogPipes.undelivered_eq_nil.mpr ⟨?_, ?_, ?_⟩)
    · rw [noStdout]
      exact fun _ member => by cases member
    · rw [stderr]
      exact blankStderr
    · rw [pending]
      exact blankPending

/-- Two lines on the second stream wedge the pipes that hold one chunk each. -/
theorem logs_wedged :
    ¬ NeverWedged (fun _ => some 0) 1
      [⟨.stderr, sampleLine.row ++ [newline]⟩,
        ⟨.stderr, sampleLine.row ++ [newline]⟩] := by
  intro never
  obtain ⟨side, after, moves⟩ :=
    never [.writer] _ (.single rfl) (by decide)
  cases side with
  | writer => cases moves
  | reader => cases moves

end Prescott
