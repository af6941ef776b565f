import Prescott.EntryFiles
import Prescott.PageTraversal

namespace Prescott

/-!
# The log files

The file provider writes an entry as a JSON text and a line feed, and a search
reads the file line by line.  The reader knows more ends of a line than the
writer: a separator that the JSON text carries as it is cuts the entry.
-/

/-- The name of a stream in an entry. -/
def LogEntryStream.name : LogEntryStream → List Char
  | .stdout => "stdout".toList
  | .stderr => "stderr".toList

namespace LogEntry

/-- A time as it is written; JSON has no `NaN`. -/
def timeScalar : Option Int → Json.Scalar Int
  | some time => .number time
  | none => .null

/-- The time of a member; `none` where it is no time. -/
def timeOf : Json.Scalar Int → Option (Option Int)
  | .number time => some (some time)
  | .null => some none
  | .text _ => none

/-- The members of an entry, in the order in which they are set. -/
def fields (entry : LogEntry) : List (Json.Field Int) :=
  [("stream".toList, .text entry.stream.name),
    ("time".toList, timeScalar entry.time),
    ("content".toList, .text entry.content.toList)]

/-- The entry with these members; a later member replaces an earlier one. -/
def ofFields (fields : List (Json.Field Int)) : Option LogEntry :=
  let member := fun (key : String) => fields.reverse.lookup key.toList
  match member "stream", (member "time").bind timeOf, member "content" with
  | some (.text name), some time, some (.text content) =>
      if name = LogEntryStream.name .stdout then
        some ⟨.stdout, time, String.ofList content⟩
      else if name = LogEntryStream.name .stderr then
        some ⟨.stderr, time, String.ofList content⟩
      else
        none
  | _, _, _ => none

/-- Log entries as flat objects. -/
def codec : Json.RecordCodec LogEntry Int where
  fields := fields
  ofFields := ofFields
  ofFields_fields entry := by
    obtain ⟨stream, time, content⟩ := entry
    have sameContent : String.ofList content.toList = content :=
      String.ofList_toList
    cases stream <;> cases time <;> exact congrArg (fun text => some (mk _ _ text)) sameContent

/-- The line of an entry without its end. -/
def line (format : Json.NumberFormat Int) (entry : LogEntry) : List Char :=
  codec.line format entry

/-- No character of the content is a line or paragraph separator. -/
def HasNoSeparator (entry : LogEntry) : Prop :=
  ∀ char ∈ entry.content.toList, isSeparator char = false

instance : DecidablePred HasNoSeparator := fun entry =>
  List.decidableBAll (fun char => isSeparator char = false)
    entry.content.toList

/-- The content is the only part of an entry that can have a separator. -/
theorem isReadable_iff
    {entry : LogEntry} :
    codec.IsReadable entry ↔ entry.HasNoSeparator := by
  have keys :
      ∀ key ∈ ["stream".toList, "time".toList, "content".toList], Json.Unseparated key := by
    decide
  have names (stream : LogEntryStream) : Json.Unseparated stream.name := by
    cases stream <;> decide
  constructor
  · intro readable
    exact readable _ (.tail _ (.tail _ (.head _))) _ (.tail _ (.head _))
  · intro noSeparator field listed text isText
    simp only [codec, fields, List.mem_cons, List.not_mem_nil, or_false] at listed
    rcases listed with rfl | rfl | rfl
    · rcases List.mem_cons.mp isText with rfl | isText
      · exact keys _ (by simp)
      · exact List.mem_singleton.mp isText ▸ names entry.stream
    · have isKey : text = "time".toList := by
        obtain ⟨stream, time, content⟩ := entry
        cases time <;> exact List.mem_singleton.mp isText
      exact isKey ▸ keys _ (by simp)
    · rcases List.mem_cons.mp isText with rfl | isText
      · exact keys _ (by simp)
      · exact List.mem_singleton.mp isText ▸ noSeparator

end LogEntry

/-- `consumeLogGenerator`: the text of the file after all entries. -/
def consumeLogGenerator
    (format : Json.NumberFormat Int)
    (logGenerator : List LogEntry) :
    List Char :=
  LogEntry.codec.text format logGenerator

/-- `searchLog` on the text of a file. -/
def searchLogFile
    (regExp : RegExpCompiler)
    (format : Json.NumberFormat Int)
    (file : List Char)
    (dto : EntrySearchDto)
    (paging : EntryPaging) :
    Except AppError (EntryPage LogEntry) := do
  let isMatch ← buildLogMatcher regExp dto
  searchFile (LogEntry.codec.ofLine format) isMatch file paging

/--
The pages from 0, 1000, 2000, ... on are returned without an error, and as
many of them as the entries need are the stored entries together.
-/
def ReadsBack
    (regExp : RegExpCompiler)
    (format : Json.NumberFormat Int)
    (entries : List LogEntry) :
    Prop :=
  ∃ page : Nat → EntryPage LogEntry,
    (∀ index : Nat,
      searchLogFile regExp format (consumeLogGenerator format entries) {}
        { from? := some (1000 * index : Nat) } = .ok (page index)) ∧
      ∀ count,
        entries.length ≤ 1000 * count →
        ((List.range count).flatMap fun index => (page index).entries) =
          entries

section Search

variable {regExp : RegExpCompiler}
variable {format : Json.NumberFormat Int}
variable {entries : List LogEntry}

theorem isReadable_of_noSeparator
    (noSeparator : ∀ entry ∈ entries, entry.HasNoSeparator) :
    ∀ entry ∈ entries, LogEntry.codec.IsReadable entry := fun entry listed =>
  LogEntry.isReadable_iff.mpr (noSeparator entry listed)

/-- A search in the file of such entries is a search in the entries. -/
theorem searchLogFile_eq_searchLog
    (noSeparator : ∀ entry ∈ entries, entry.HasNoSeparator)
    (dto : EntrySearchDto)
    (paging : EntryPaging) :
    searchLogFile regExp format (consumeLogGenerator format entries) dto
        paging =
      searchLog regExp entries dto paging := by
  unfold searchLogFile searchLog
  cases buildLogMatcher regExp dto with
  | error reason => rfl
  | ok isMatch => exact searchFile_readable (isReadable_of_noSeparator noSeparator) isMatch paging

/-- The windows of a thousand entries follow each other without a gap. -/
theorem flatMap_windows
    (entries : List LogEntry)
    (count : Nat) :
    ((List.range count).flatMap fun index =>
        (entries.drop (1000 * index)).take 1000) =
      entries.take (1000 * count) := by
  induction count with
  | zero =>
      rfl
  | succ count inductionHypothesis =>
      rw [List.range_succ, List.flatMap_append, inductionHypothesis,
        List.flatMap_singleton, Nat.mul_succ, List.take_add]

theorem readsBack_of_noSeparator
    (noSeparator : ∀ entry ∈ entries, entry.HasNoSeparator) :
    ReadsBack regExp format entries := by
  refine ⟨fun index => windowPage entries (1000 * index) 1000, fun index => ?_,
    fun count enough => ?_⟩
  · have window :=
      @searchLog_windowed regExp {} _ rfl entries none (fun _ => by simp)
        (some (1000 * index : Nat))
    rw [searchLogFile_eq_searchLog noSeparator, window]
    exact congrArg (fun stored => Except.ok (windowPage stored _ _))
      (List.filter_true entries)
  · exact (flatMap_windows entries count).trans (List.take_of_length_le enough)

/-- An entry with a separator fails the search for its page. -/
theorem searchLogFile_fails
    (regExp : RegExpCompiler)
    (format : Json.NumberFormat Int)
    {leading : List LogEntry}
    (trailing : List LogEntry)
    {entry : LogEntry}
    (noSeparator : ∀ earlier ∈ leading, earlier.HasNoSeparator)
    (separated : ¬ entry.HasNoSeparator) :
    searchLogFile regExp format
        (consumeLogGenerator format (leading ++ entry :: trailing)) {}
        { from? := some (1000 * (leading.length / 1000) : Nat) } =
      .error unparsable :=
  searchFile_unreadable format (isReadable_of_noSeparator noSeparator)
    (LogEntry.isReadable_iff.not.mpr separated) trailing

theorem noSeparator_of_readsBack
    (readsBack : ReadsBack regExp format entries) :
    ∀ entry ∈ entries, entry.HasNoSeparator := by
  by_contra separated
  obtain ⟨leading, entry, trailing, rfl, before, entrySeparated⟩ :=
    Json.exists_first_not separated
  have failed := searchLogFile_fails regExp format trailing before entrySeparated
  obtain ⟨page, answered, _⟩ := readsBack
  have answered := answered (leading.length / 1000)
  rw [failed] at answered
  cases answered

/--
Stored entries are read back unchanged exactly when no content contains a
line separator U+2028 or a paragraph separator U+2029.
-/
theorem storedLogs_readBack_iff
    (regExp : RegExpCompiler)
    (format : Json.NumberFormat Int)
    (entries : List LogEntry) :
    ReadsBack regExp format entries ↔
      ∀ entry ∈ entries, entry.HasNoSeparator :=
  ⟨noSeparator_of_readsBack, readsBack_of_noSeparator⟩

/-- An entry whose content is a line separator is not read back. -/
theorem storedLogs_notReadBack :
    ¬ ReadsBack (fun _ => none) Json.decimalFormat
      [⟨.stdout, some 0, "\u2028"⟩] := by
  intro readsBack
  have noSeparator := noSeparator_of_readsBack readsBack _ (.head _)
  exact absurd noSeparator (by decide)

end Search

end Prescott
