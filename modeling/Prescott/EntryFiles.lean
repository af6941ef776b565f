import Prescott.EntrySearch
import Prescott.JsonLines

namespace Prescott

/-!
# Searching the files of entries

A search reads the file of a run line by line and parses every line until the
page is full.  As long as the entries are readable, it is a search in the
entries; a line that cannot be parsed rejects it unless the page is full before.
-/

/-- What `JSON.parse` throws. -/
def unparsable : AppError :=
  .syntaxError "Unexpected token in JSON"

variable {Entry Number : Type}

/-- The loop of a search over the lines of a file. -/
def Paginator.consumeLines
    (ofLine : List Char → Option Entry)
    (isMatchFn : Entry → Bool) :
    Paginator Entry →
    List (List Char) →
    Except AppError (Paginator Entry)
  | paginator, [] => .ok paginator
  | paginator, line :: rest =>
      match ofLine line with
      | none => .error unparsable
      | some entry =>
          match paginator.process isMatchFn entry with
          | (true, done) => .ok done
          | (false, more) => consumeLines ofLine isMatchFn more rest

/-- A search in the text of a file. -/
def searchFile
    (ofLine : List Char → Option Entry)
    (isMatchFn : Entry → Bool)
    (file : List Char)
    (paging : EntryPaging) :
    Except AppError (EntryPage Entry) :=
  ((buildPaginator paging maxEntryPageSize).consumeLines ofLine isMatchFn
    (readLines file)).map Paginator.build

namespace Paginator

variable {codec : Json.RecordCodec Entry Number}
variable {format : Json.NumberFormat Number}

/-- Reading the lines of entries is reading the entries. -/
theorem consumeLines_lines
    (isMatchFn : Entry → Bool)
    (paginator : Paginator Entry)
    (entries : List Entry) :
    paginator.consumeLines (codec.ofLine format) isMatchFn
        (entries.map (codec.line format)) =
      .ok (paginator.consume isMatchFn entries) := by
  induction entries generalizing paginator with
  | nil =>
      rfl
  | cons entry rest inductionHypothesis =>
      simp only [List.map_cons, consumeLines, Json.RecordCodec.ofLine_line, consume]
      rcases paginator.process isMatchFn entry with ⟨isDone, more⟩
      cases isDone with
      | true => rfl
      | false => exact inductionHypothesis more

/--
A line that cannot be parsed fails the search when the page is not full
before it.
-/
theorem consumeLines_broken
    (paginator : Paginator Entry)
    (entries : List Entry)
    {broken : List Char}
    (rest : List (List Char))
    (cannotParse : codec.ofLine format broken = none)
    (kept :
      (paginator.matchedEntries.length : Int) ≤
        max 0 (paginator.matchedCounter - paginator.fromIdx))
    (notFull :
      max 0 (paginator.matchedCounter + entries.length - paginator.fromIdx) <
        paginator.pageSize) :
    paginator.consumeLines (codec.ofLine format) (fun _ => true)
        (entries.map (codec.line format) ++ broken :: rest) =
      .error unparsable := by
  induction entries generalizing paginator with
  | nil =>
      simp [consumeLines, cannotParse]
  | cons entry others inductionHypothesis =>
      simp only [List.length_cons, Int.natCast_add, Int.cast_ofNat_Int]
        at notFull
      simp only [List.map_cons, List.cons_append, consumeLines,
        Json.RecordCodec.ofLine_line]
      by_cases before : paginator.matchedCounter < paginator.fromIdx
      · have isOpen : paginator.isFull = false := by
          rw [isFull, beq_eq_false_iff_ne]
          omega
        rw [process_beforeOffset entry before, isOpen]
        refine inductionHypothesis _ ?_ ?_
        · change (paginator.matchedEntries.length : Int) ≤
            max 0 (paginator.matchedCounter + 1 - paginator.fromIdx)
          omega
        · change max 0 (paginator.matchedCounter + 1 + others.length -
            paginator.fromIdx) < paginator.pageSize
          omega
      · have isOpen :
            ((paginator.matchedEntries.length : Int) + 1 ==
                paginator.pageSize) =
              false := by
          rw [beq_eq_false_iff_ne]
          omega
        rw [process_passedOffset entry (by omega), isOpen]
        refine inductionHypothesis _ ?_ ?_
        · change ((paginator.matchedEntries ++ [entry]).length : Int) ≤
            max 0 (paginator.matchedCounter + 1 - paginator.fromIdx)
          rw [List.length_append]
          simp only [List.length_singleton, Int.natCast_add,
            Int.cast_ofNat_Int]
          omega
        · change max 0 (paginator.matchedCounter + 1 + others.length -
            paginator.fromIdx) < paginator.pageSize
          omega

end Paginator

section Search

variable {codec : Json.RecordCodec Entry Number}
variable {format : Json.NumberFormat Number}
variable {entries : List Entry}

/-- The lines of readable entries. -/
theorem readLines_entries
    (format : Json.NumberFormat Number)
    (readable : ∀ entry ∈ entries, codec.IsReadable entry) :
    readLines (codec.text format entries) = entries.map (codec.line format) := by
  have read := Json.RecordCodec.readLines_text format readable []
  rwa [List.append_nil, show readLines [] = [] from rfl, List.append_nil] at read

/-- A search in the file of readable entries is a search in the entries. -/
theorem searchFile_readable
    (readable : ∀ entry ∈ entries, codec.IsReadable entry)
    (isMatchFn : Entry → Bool)
    (paging : EntryPaging) :
    searchFile (codec.ofLine format) isMatchFn (codec.text format entries) paging =
      .ok (searchEntries isMatchFn maxEntryPageSize entries paging) := by
  rw [searchFile, readLines_entries format readable, Paginator.consumeLines_lines]
  rfl

/-- An entry that is not readable fails the search for its page. -/
theorem searchFile_unreadable
    (format : Json.NumberFormat Number)
    {leading : List Entry}
    {entry : Entry}
    (readable : ∀ earlier ∈ leading, codec.IsReadable earlier)
    (notReadable : ¬ codec.IsReadable entry)
    (trailing : List Entry) :
    searchFile (codec.ofLine format) (fun _ => true)
        (codec.text format (leading ++ entry :: trailing))
        { from? := some (1000 * (leading.length / 1000) : Nat) } =
      .error unparsable := by
  obtain ⟨broken, rest, cannotParse, lines⟩ :=
    Json.RecordCodec.readLines_text_of_not_readable format readable notReadable trailing
  have failed :=
    Paginator.consumeLines_broken
      (buildPaginator { from? := some (1000 * (leading.length / 1000) : Nat) }
        maxEntryPageSize)
      leading rest cannotParse
      (by simp [buildPaginator])
      (by
        simp only [buildPaginator, EntryPaging.cappedPageSize,
          maxEntryPageSize, Option.getD_some, Option.getD_none]
        omega)
  rw [searchFile, lines, failed]
  rfl

/-- With an entry that is not readable some search fails. -/
theorem exists_failingSearch
    (format : Json.NumberFormat Number)
    (unreadable : ¬ ∀ entry ∈ entries, codec.IsReadable entry) :
    ∃ paging,
      searchFile (codec.ofLine format) (fun _ => true) (codec.text format entries)
          paging =
        .error unparsable := by
  obtain ⟨leading, entry, trailing, rfl, readable, notReadable⟩ :=
    Json.exists_first_not unreadable
  exact ⟨_, searchFile_unreadable format readable notReadable trailing⟩

end Search

end Prescott
