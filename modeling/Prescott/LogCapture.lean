import Prescott.EntrySearch
import Prescott.Utf8Decoding

namespace Prescott

/-!
# Capturing container logs

`DockerEnvHandle` reads what `docker logs` writes to a stream chunk by chunk.
A chunk is decoded and split into rows by itself, so a row that is cut by a
chunk boundary is taken for two.
-/

/-- The line feed, `'\n'`. -/
def newline : UInt8 :=
  0x0A

/-- The space, `' '`. -/
def space : UInt8 :=
  0x20

/-- The UTF-16 code units of a text. -/
def codeUnits (text : List Char) : List UInt16 :=
  text.flatMap fun char =>
    if char.toNat < 0x10000 then
      [UInt16.ofNat char.toNat]
    else
      [UInt16.ofNat (0xD800 + (char.toNat - 0x10000) / 0x400),
        UInt16.ofNat (0xDC00 + (char.toNat - 0x10000) % 0x400)]

/-- `Date.parse` on the code units of a text; `none` is `NaN`. -/
abbrev DateParser := List UInt16 → Option Int

/-- A log entry as it is captured; the time is `none` when it is `NaN`. -/
structure CapturedLog where
  stream : LogEntryStream
  time : Option Int
  content : String
  deriving Repr, DecidableEq

namespace DockerEnvHandle

/-- One row: up to the first space its timestamp, then its content. -/
def parseRawLogRow
    (dateParse : DateParser)
    (rawLog : List Char)
    (stream : LogEntryStream) :
    CapturedLog :=
  match rawLog.idxOf? ' ' with
  | some whiteSpaceIdx =>
      { stream
        time := dateParse (codeUnits (rawLog.take whiteSpaceIdx))
        content := String.ofList (rawLog.drop (whiteSpaceIdx + 1)) }
  | none =>
      -- the index is -1: `slice(0, -1)` drops the last code unit
      { stream
        time := dateParse (codeUnits rawLog).dropLast
        content := String.ofList rawLog }

/-- The loop over the chunks of a stream; empty rows are skipped. -/
def consumeLogStream
    (dateParse : DateParser)
    (readable : List (List UInt8))
    (stream : LogEntryStream) :
    List CapturedLog :=
  readable.flatMap fun chunk =>
    let rawLogs := (Utf8.decode chunk).splitOn '\n'
    (rawLogs.filter fun rawLog => !rawLog.isEmpty).map fun rawLog =>
      parseRawLogRow dateParse rawLog stream

end DockerEnvHandle

/-- A line that `docker logs` writes: `<timestamp> <content>`. -/
structure LogLine where
  timestamp : List UInt8
  content : List UInt8
  noSpace : space ∉ timestamp
  oneLine : newline ∉ timestamp ++ content

namespace LogLine

/-- The line without its end. -/
def row (line : LogLine) : List UInt8 :=
  line.timestamp ++ space :: line.content

/-- The entry of the line: its timestamp and its content. -/
def entry
    (dateParse : DateParser)
    (stream : LogEntryStream)
    (line : LogLine) :
    CapturedLog where
  stream := stream
  time := dateParse (codeUnits (Utf8.decode line.timestamp))
  content := String.ofList (Utf8.decode line.content)

end LogLine

/-- All that is written to the stream; every line is ended by a newline. -/
def writtenText (lines : List LogLine) : List UInt8 :=
  lines.flatMap fun line => line.row ++ [newline]

/-- The text is cut between two chunks directly after or before a newline. -/
def MeetAtLineEnd (left right : List UInt8) : Prop :=
  left.getLast? = some newline ∨ right.head? = some newline

/-- The rows of a text: what stands between its newlines, unless it is empty. -/
def rows (text : List UInt8) : List (List UInt8) :=
  (text.splitOn newline).filter fun row => !row.isEmpty

section Rows

variable {byte : UInt8}
variable {text left right : List UInt8}

@[simp] theorem rows_nil : rows [] = [] :=
  rfl

/-- A newline separates the rows before it from the rows after it. -/
theorem rows_append_newline
    (left right : List UInt8) :
    rows (left ++ newline :: right) = rows left ++ rows right := by
  rw [rows, List.splitOn_append_cons_self, List.filter_append]
  rfl

theorem rows_newline_cons
    (right : List UInt8) :
    rows (newline :: right) = rows right :=
  rows_append_newline [] right

/-- A text without a newline is one row. -/
theorem rows_of_notMem
    (nonempty : text ≠ [])
    (oneLine : newline ∉ text) :
    rows text = [text] := by
  rw [rows, List.splitOn_eq_singleton oneLine]
  simp [nonempty]

/-- A byte before a newline is a row of its own. -/
theorem rows_cons_newline
    (isOther : byte ≠ newline)
    (right : List UInt8) :
    rows (byte :: newline :: right) = [byte] :: rows right := by
  rw [← List.singleton_append, rows_append_newline,
    rows_of_notMem (List.cons_ne_nil _ _) (by simpa using isOther.symm)]
  rfl

/-- A byte before another one belongs to the row of that one. -/
theorem length_rows_cons_cons
    {next : UInt8}
    (isOther : byte ≠ newline)
    (nextIsOther : next ≠ newline)
    (right : List UInt8) :
    (rows (byte :: next :: right)).length =
      (rows (next :: right)).length := by
  obtain ⟨first, others, split⟩ :=
    List.exists_cons_of_ne_nil (List.splitOn_ne_nil newline right)
  simp [rows, List.splitOn_cons_eq_if_modifyHead, isOther, nextIsOther, split]

/-- A cut at the end of a line keeps the rows. -/
theorem rows_append
    (meet : MeetAtLineEnd left right) :
    rows (left ++ right) = rows left ++ rows right := by
  rcases meet with ended | begun
  · obtain ⟨earlier, rfl⟩ := List.getLast?_eq_some_iff.mp ended
    rw [List.append_assoc, List.singleton_append, rows_append_newline,
      rows_append_newline, rows_nil, List.append_nil]
  · obtain ⟨later, rfl⟩ := List.head?_eq_some_iff.mp begun
    rw [rows_append_newline, rows_newline_cons]

/-- A cut inside a row makes two of it. -/
theorem length_rows_append
    (leftNonempty : left ≠ [])
    (rightNonempty : right ≠ [])
    (apart : ¬ MeetAtLineEnd left right) :
    (rows (left ++ right)).length + 1 =
      (rows left).length + (rows right).length := by
  obtain ⟨next, later, rfl⟩ := List.exists_cons_of_ne_nil rightNonempty
  have nextIsOther : next ≠ newline := by
    rintro rfl
    exact apart (.inr rfl)
  induction left with
  | nil =>
      exact absurd rfl leftNonempty
  | cons byte rest inductionHypothesis =>
      cases rest with
      | nil =>
          have isOther : byte ≠ newline := by
            rintro rfl
            exact apart (.inl rfl)
          have single : rows [byte] = [[byte]] :=
            rows_of_notMem (List.cons_ne_nil _ _) (by simpa using isOther.symm)
          rw [List.singleton_append,
            length_rows_cons_cons isOther nextIsOther, single,
            List.length_singleton, Nat.add_comm]
      | cons second others =>
          have shorter :=
            inductionHypothesis (List.cons_ne_nil _ _) fun meet =>
              apart (meet.imp_left fun ended => by
                rw [List.getLast?_cons_cons]
                exact ended)
          by_cases isNewline : byte = newline
          · rw [isNewline, List.cons_append, rows_newline_cons,
              rows_newline_cons]
            exact shorter
          · by_cases secondIsNewline : second = newline
            · rw [secondIsNewline] at shorter ⊢
              rw [List.cons_append, List.cons_append,
                rows_cons_newline isNewline, rows_cons_newline isNewline]
              rw [List.cons_append, rows_newline_cons, rows_newline_cons]
                at shorter
              simp only [List.length_cons]
              omega
            · rw [List.cons_append, List.cons_append,
                length_rows_cons_cons isNewline secondIsNewline,
                length_rows_cons_cons isNewline secondIsNewline]
              exact shorter

end Rows

section Chunks

variable {chunks : List (List UInt8)}

/-- Cuts at the ends of lines keep the rows. -/
theorem flatMap_rows
    (nonempty : ∀ chunk ∈ chunks, chunk ≠ [])
    (atLineEnds : chunks.IsChain MeetAtLineEnd) :
    chunks.flatMap rows = rows chunks.flatten := by
  induction chunks with
  | nil =>
      rfl
  | cons chunk rest inductionHypothesis =>
      rw [List.flatMap_cons, List.flatten_cons,
        inductionHypothesis
          (fun other member => nonempty other (.tail _ member))
          atLineEnds.of_cons]
      cases rest with
      | nil =>
          simp
      | cons next others =>
          refine (rows_append ?_).symm
          have nextNonempty := nonempty next (.tail _ (.head _))
          rcases (List.isChain_cons_cons.mp atLineEnds).1 with
              ended | begun
          · exact .inl ended
          · refine .inr ?_
            rw [List.flatten_cons, List.head?_append, begun]
            rfl

/-- Cuts never join rows. -/
theorem length_rows_flatten_le
    (nonempty : ∀ chunk ∈ chunks, chunk ≠ []) :
    (rows chunks.flatten).length ≤ (chunks.flatMap rows).length := by
  induction chunks with
  | nil =>
      exact Nat.le_refl _
  | cons chunk rest inductionHypothesis =>
      have later :=
        inductionHypothesis fun other member => nonempty other (.tail _ member)
      rw [List.flatten_cons, List.flatMap_cons, List.length_append]
      by_cases last : rest.flatten = []
      · rw [last, List.append_nil]
        exact Nat.le_add_right _ _
      · by_cases meet : MeetAtLineEnd chunk rest.flatten
        · rw [rows_append meet, List.length_append]
          omega
        · have joined :=
            length_rows_append (nonempty chunk (.head _)) last meet
          omega

/-- As many rows as before: every cut is at the end of a line. -/
theorem isChain_of_length
    (nonempty : ∀ chunk ∈ chunks, chunk ≠ [])
    (sameNumber :
      (chunks.flatMap rows).length = (rows chunks.flatten).length) :
    chunks.IsChain MeetAtLineEnd := by
  induction chunks with
  | nil =>
      exact .nil
  | cons chunk rest inductionHypothesis =>
      cases rest with
      | nil =>
          exact .singleton _
      | cons next others =>
          have laterNonempty :
              ∀ other ∈ next :: others, other ≠ [] :=
            fun other member => nonempty other (.tail _ member)
          have later := length_rows_flatten_le laterNonempty
          rw [List.flatMap_cons, List.flatten_cons, List.length_append]
            at sameNumber
          obtain ⟨byte, bytes, rfl⟩ :=
            List.exists_cons_of_ne_nil (nonempty next (.tail _ (.head _)))
          by_cases meet :
              MeetAtLineEnd chunk ((byte :: bytes) :: others).flatten
          · rw [rows_append meet, List.length_append] at sameNumber
            refine List.isChain_cons_cons.mpr
              ⟨meet, inductionHypothesis laterNonempty (by omega)⟩
          · have joined :=
              length_rows_append (nonempty chunk (.head _))
                (by simp) meet
            omega

end Chunks

namespace DockerEnvHandle

variable {dateParse : DateParser}
variable {stream : LogEntryStream}

/-- Splitting a decoded chunk decodes the rows of the chunk. -/
theorem consumeLogStream_eq
    (chunks : List (List UInt8)) :
    consumeLogStream dateParse chunks stream =
      (chunks.flatMap rows).map fun row =>
        parseRawLogRow dateParse (Utf8.decode row) stream := by
  rw [consumeLogStream, List.map_flatMap]
  refine List.flatMap_congr fun chunk _ => ?_
  have split :
      (Utf8.decode chunk).splitOn '\n' =
        (chunk.splitOn newline).map Utf8.decode :=
    @Utf8.decode_splitOn newline (by decide) (by decide) chunk
  have keeps :
      ((fun rawLog : List Char => !rawLog.isEmpty) ∘ Utf8.decode) =
        fun row : List UInt8 => !row.isEmpty := by
    funext row
    rw [Function.comp_apply, Bool.eq_iff_iff]
    simp [Utf8.decode_eq_nil]
  simp only [split, List.filter_map, List.map_map, keeps]
  rfl

/-- A line is parsed to its entry. -/
theorem parseRawLogRow_row
    (line : LogLine) :
    parseRawLogRow dateParse (Utf8.decode line.row) stream =
      line.entry dateParse stream := by
  have decoded :
      Utf8.decode line.row =
        Utf8.decode line.timestamp ++ ' ' :: Utf8.decode line.content :=
    Utf8.decode_append_ascii _ _ (by decide)
  have noSpace : ' ' ∉ Utf8.decode line.timestamp := by
    intro member
    obtain ⟨byte, byteMember, sameByte⟩ :=
      Utf8.mem_of_mem_decodeFrom (by decide) (by decide) member
    have isSpace : byte = space :=
      UInt8.toNat_inj.mp sameByte
    exact line.noSpace (isSpace ▸ byteMember)
  have found :
      (Utf8.decode line.timestamp ++ ' ' :: Utf8.decode line.content).idxOf?
          ' ' =
        some (Utf8.decode line.timestamp).length :=
    List.idxOf?_eq_some_iff.mpr (by
      refine ⟨by simp, by simp, fun index before => ?_⟩
      rw [List.getElem_append_left before]
      intro same
      exact noSpace (same ▸ List.getElem_mem before))
  simp only [parseRawLogRow, decoded, found]
  simp [LogLine.entry]

end DockerEnvHandle

/-- The rows of the written text are its lines. -/
theorem rows_writtenText
    (lines : List LogLine) :
    rows (writtenText lines) = lines.map LogLine.row := by
  induction lines with
  | nil =>
      rfl
  | cons line rest inductionHypothesis =>
      have oneLine : newline ∉ line.row := by
        have oneLine := line.oneLine
        simp only [LogLine.row, List.mem_append, List.mem_cons] at oneLine ⊢
        rintro (stamped | isSpace | contained)
        · exact oneLine (.inl stamped)
        · exact absurd isSpace (by decide)
        · exact oneLine (.inr contained)
      have shape :
          writtenText (line :: rest) =
            line.row ++ newline :: writtenText rest := by
        simp [writtenText]
      rw [shape, rows_append_newline, inductionHypothesis,
        rows_of_notMem (by simp [LogLine.row]) oneLine]
      rfl

/-- The entries captured from the whole text, whatever the chunks are. -/
def CapturesLines
    (dateParse : DateParser)
    (stream : LogEntryStream)
    (lines : List LogLine)
    (chunks : List (List UInt8)) :
    Prop :=
  DockerEnvHandle.consumeLogStream dateParse chunks stream =
      DockerEnvHandle.consumeLogStream dateParse [writtenText lines] stream ∧
    DockerEnvHandle.consumeLogStream dateParse chunks stream =
      lines.map (LogLine.entry dateParse stream)

/--
The entries of a text are those of its lines, as if it came in one chunk,
exactly when every cut falls directly after or before a newline.
-/
theorem consumeLogStream_capturesLines_iff
    (dateParse : DateParser)
    (stream : LogEntryStream)
    (lines : List LogLine)
    (chunks : List (List UInt8))
    (cutting : chunks.flatten = writtenText lines)
    (nonempty : ∀ chunk ∈ chunks, chunk ≠ []) :
    CapturesLines dateParse stream lines chunks ↔
      chunks.IsChain MeetAtLineEnd := by
  have whole :
      DockerEnvHandle.consumeLogStream dateParse [writtenText lines] stream =
        lines.map (LogLine.entry dateParse stream) := by
    rw [DockerEnvHandle.consumeLogStream_eq, List.flatMap_singleton,
      rows_writtenText, List.map_map]
    exact List.map_congr_left fun line _ =>
      DockerEnvHandle.parseRawLogRow_row line
  constructor
  · intro ⟨same, _⟩
    refine isChain_of_length nonempty ?_
    have sameLength := congrArg List.length same
    rw [DockerEnvHandle.consumeLogStream_eq,
      DockerEnvHandle.consumeLogStream_eq, List.length_map, List.length_map,
      List.flatMap_singleton] at sameLength
    rw [sameLength, cutting]
  · intro atLineEnds
    have same :
        DockerEnvHandle.consumeLogStream dateParse chunks stream =
          DockerEnvHandle.consumeLogStream dateParse [writtenText lines]
            stream := by
      rw [DockerEnvHandle.consumeLogStream_eq,
        DockerEnvHandle.consumeLogStream_eq, List.flatMap_singleton,
        flatMap_rows nonempty atLineEnds, cutting]
    exact ⟨same, same.trans whole⟩

/-- The line `1970-01-01 ab`, whose content has two bytes. -/
def sampleLine : LogLine where
  timestamp := [0x31, 0x39, 0x37, 0x30, 0x2D, 0x30, 0x31, 0x2D, 0x30, 0x31]
  content := [0x61, 0x62]
  noSpace := by decide
  oneLine := by decide

/-- Two lines that come in three chunks, each cut around a newline. -/
theorem consumeLogStream_capturesLines_two :
    CapturesLines (fun _ => some 0) .stdout [sampleLine, sampleLine]
      [sampleLine.row, [newline], sampleLine.row ++ [newline]] :=
  (consumeLogStream_capturesLines_iff _ _ _ _ (by decide) (by decide)).mpr
    (List.isChain_cons_cons.mpr
      ⟨.inr rfl, List.isChain_cons_cons.mpr ⟨.inl rfl, .singleton _⟩⟩)

/-- A line that is cut between the two bytes of its content makes two entries. -/
theorem consumeLogStream_splitsLine :
    (sampleLine.row.dropLast :: [[0x62, newline]]).flatten =
        writtenText [sampleLine] ∧
      (∀ chunk ∈ sampleLine.row.dropLast :: [[0x62, newline]], chunk ≠ []) ∧
      ∀ dateParse,
        ¬ CapturesLines dateParse .stdout [sampleLine]
          (sampleLine.row.dropLast :: [[0x62, newline]]) := by
  refine ⟨by decide, by decide, fun dateParse ⟨same, _⟩ => ?_⟩
  have sameLength := congrArg List.length same
  rw [DockerEnvHandle.consumeLogStream_eq, DockerEnvHandle.consumeLogStream_eq,
    List.length_map, List.length_map] at sameLength
  exact absurd sameLength (by decide)

end Prescott
