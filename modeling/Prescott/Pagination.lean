import Mathlib.Data.List.Basic
import Mathlib.Order.MinMax
import Mathlib.Tactic.Common

namespace Prescott

/-!
# Pagination

`buildPaginator` scans a stream of entries once.  It counts the matching
entries, keeps those from `fromIdx` on, and reports when the page is full.
The specification lemmas describe the page as a window of the matching
entries; they hold for every entry type and every matcher.
-/

/-- The paging part of a search request; absent fields are `none`. -/
structure EntryPaging where
  from? : Option Int := none
  pageSize : Option Int := none
  deriving Repr, DecidableEq

/-- One page of entries and, when there is one, the offset of the next page. -/
structure EntryPage (Entry : Type) where
  entries : List Entry
  next : Option Int
  deriving Repr, DecidableEq

/-- The variables closed over by the functions that `buildPaginator` returns. -/
structure Paginator (Entry : Type) where
  fromIdx : Int
  pageSize : Int
  matchedCounter : Int
  matchedEntries : List Entry
  deriving Repr, DecidableEq

/-- `Math.min(maxPageSize, paging.pageSize ?? maxPageSize)`. -/
def EntryPaging.cappedPageSize (paging : EntryPaging) (maxPageSize : Int) : Int :=
  min maxPageSize (paging.pageSize.getD maxPageSize)

/-- The initial state of a paginator. -/
def buildPaginator (paging : EntryPaging) (maxPageSize : Int) : Paginator Entry where
  fromIdx := paging.from?.getD 0
  pageSize := paging.cappedPageSize maxPageSize
  matchedCounter := 0
  matchedEntries := []

namespace Paginator

/-- Has the page exactly `pageSize` entries?  The test of `process` and `build`. -/
def isFull (paginator : Paginator Entry) : Bool :=
  (paginator.matchedEntries.length : Int) == paginator.pageSize

/-- Feed one entry; the flag tells the caller to stop reading. -/
def process
    (isMatchFn : Entry → Bool)
    (paginator : Paginator Entry)
    (entry : Entry) :
    Bool × Paginator Entry :=
  if isMatchFn entry then
    -- `matchedCounter++ >= fromIdx` compares before it increments
    let counted :=
      { paginator with matchedCounter := paginator.matchedCounter + 1 }
    let pushed :=
      if paginator.matchedCounter ≥ paginator.fromIdx then
        { counted with matchedEntries := counted.matchedEntries ++ [entry] }
      else
        counted
    (pushed.isFull, pushed)
  else
    (false, paginator)

/-- The page collected so far. -/
def build (paginator : Paginator Entry) : EntryPage Entry where
  entries := paginator.matchedEntries
  next :=
    if paginator.isFull then
      some (paginator.matchedCounter + 1)
    else
      none

/-- The reading loop of the file providers, which breaks on the first `true`. -/
def consume
    (isMatchFn : Entry → Bool) :
    Paginator Entry → List Entry → Paginator Entry
  | paginator, [] => paginator
  | paginator, entry :: rest =>
      match paginator.process isMatchFn entry with
      | (true, done) => done
      | (false, more) => consume isMatchFn more rest

end Paginator

/-- `searchLog` and `searchMetric` once the matcher is built and the file open. -/
def searchEntries
    (isMatchFn : Entry → Bool)
    (maxPageSize : Int)
    (stored : List Entry)
    (paging : EntryPaging) :
    EntryPage Entry :=
  ((buildPaginator paging maxPageSize).consume isMatchFn stored).build

namespace Paginator

/-- Entries that do not match leave the paginator as it is. -/
theorem consume_filter
    (isMatchFn : Entry → Bool)
    (paginator : Paginator Entry)
    (stored : List Entry) :
    paginator.consume isMatchFn stored =
      paginator.consume (fun _ => true) (stored.filter isMatchFn) := by
  induction stored generalizing paginator with
  | nil =>
      rfl
  | cons entry rest inductionHypothesis =>
      by_cases isMatch : isMatchFn entry = true
      · have sameStep :
            paginator.process isMatchFn entry =
              paginator.process (fun _ => true) entry := by
          simp [process, isMatch]
        simp only [consume, List.filter_cons_of_pos isMatch, sameStep]
        split
        · rfl
        · exact inductionHypothesis _
      · have skipped :
            paginator.process isMatchFn entry = (false, paginator) := by
          simp [process, isMatch]
        simp only [consume, skipped, List.filter_cons_of_neg isMatch]
        exact inductionHypothesis paginator

/-- A matching entry before the offset is counted and dropped. -/
theorem process_beforeOffset
    {paginator : Paginator Entry}
    (entry : Entry)
    (before : paginator.matchedCounter < paginator.fromIdx) :
    paginator.process (fun _ => true) entry =
      (paginator.isFull,
        { paginator with matchedCounter := paginator.matchedCounter + 1 }) := by
  have notPassed : ¬ paginator.matchedCounter ≥ paginator.fromIdx := by
    omega
  simp [process, notPassed, isFull]

/-- A matching entry at or after the offset is counted and kept. -/
theorem process_passedOffset
    {paginator : Paginator Entry}
    (entry : Entry)
    (passed : paginator.fromIdx ≤ paginator.matchedCounter) :
    paginator.process (fun _ => true) entry =
      (((paginator.matchedEntries.length : Int) + 1 == paginator.pageSize),
        { paginator with
          matchedCounter := paginator.matchedCounter + 1
          matchedEntries := paginator.matchedEntries ++ [entry] }) := by
  simp [process, passed, isFull]

/--
Once the offset is passed, a paginator with room for `room + 1` more entries
takes that many of the matching entries and counts exactly those it took.
-/
theorem consume_passedOffset
    (paginator : Paginator Entry)
    (matching : List Entry)
    (room : Nat)
    (passed : paginator.fromIdx ≤ paginator.matchedCounter)
    (hasRoom :
      (paginator.matchedEntries.length : Int) + room + 1 =
        paginator.pageSize) :
    paginator.consume (fun _ => true) matching =
      { paginator with
        matchedCounter :=
          paginator.matchedCounter + (matching.take (room + 1)).length
        matchedEntries :=
          paginator.matchedEntries ++ matching.take (room + 1) } := by
  induction matching generalizing paginator room with
  | nil =>
      simp [consume]
  | cons entry rest inductionHypothesis =>
      rw [consume, process_passedOffset entry passed]
      cases room with
      | zero =>
          have full :
              (paginator.matchedEntries.length : Int) + 1 =
                paginator.pageSize := by
            simpa using hasRoom
          simp [full]
      | succ room =>
          have notFull :
              ((paginator.matchedEntries.length : Int) + 1 ==
                paginator.pageSize) = false := by
            rw [beq_eq_false_iff_ne]
            omega
          simp only [notFull]
          rw [inductionHypothesis _ room]
          · simp only [List.take_succ_cons, List.length_cons,
              List.append_assoc, List.singleton_append]
            congr 1
            omega
          · change paginator.fromIdx ≤ paginator.matchedCounter + 1
            omega
          · change
              ((paginator.matchedEntries ++ [entry]).length : Int) +
                  room + 1 =
                paginator.pageSize
            simp only [List.length_append, List.length_singleton]
            omega

/--
Before the offset the paginator only counts: after `skipped` more matching
entries it is at the offset with an empty page, or the entries are used up.
-/
theorem consume_beforeOffset
    (paginator : Paginator Entry)
    (matching : List Entry)
    (skipped : Nat)
    (distance :
      paginator.matchedCounter + skipped = paginator.fromIdx)
    (notFull : paginator.isFull = false) :
    paginator.consume (fun _ => true) matching =
      Paginator.consume (fun _ => true)
        { paginator with
          matchedCounter :=
            paginator.matchedCounter + (matching.take skipped).length }
        (matching.drop skipped) := by
  induction skipped generalizing paginator matching with
  | zero =>
      simp
  | succ skipped inductionHypothesis =>
      cases matching with
      | nil =>
          simp [consume]
      | cons entry rest =>
          have before :
              paginator.matchedCounter < paginator.fromIdx := by
            omega
          rw [consume, process_beforeOffset entry before]
          simp only [notFull]
          rw [inductionHypothesis]
          · simp only [List.take_succ_cons, List.length_cons,
              List.drop_succ_cons]
            congr 2
            omega
          · change
              paginator.matchedCounter + 1 + skipped = paginator.fromIdx
            omega
          · exact notFull

end Paginator

/--
The abstract page: `size` elements of `matching` from `offset` on.  A full
window announces one more than the number of matches up to its end.
-/
def windowPage
    (matching : List Entry)
    (offset size : Nat) :
    EntryPage Entry where
  entries := (matching.drop offset).take size
  next :=
    if offset + size ≤ matching.length then
      some ((offset + size + 1 : Nat) : Int)
    else
      none

namespace Paginator

/-- A paginator that holds a window, full or not, builds the window's page. -/
theorem build_eq_windowPage
    {paginator : Paginator Entry}
    {matching : List Entry}
    {offset size : Nat}
    (sizePositive : 0 < size)
    (entriesShape :
      paginator.matchedEntries = (matching.drop offset).take size)
    (sizeShape : paginator.pageSize = size)
    (counted :
      offset + size ≤ matching.length →
      paginator.matchedCounter = offset + size) :
    paginator.build = windowPage matching offset size := by
  have fullIff :
      paginator.isFull = true ↔ offset + size ≤ matching.length := by
    rw [isFull, entriesShape, sizeShape, beq_iff_eq, List.length_take,
      List.length_drop]
    omega
  unfold build windowPage
  rw [entriesShape]
  by_cases full : offset + size ≤ matching.length
  · rw [if_pos (fullIff.mpr full), if_pos full, counted full]
    simp
  · rw [if_neg (fun isFull => full (fullIff.mp isFull)), if_neg full]

end Paginator

/--
With a page size of at least one, a search returns the window of the matching
entries that starts at `from`; absent and negative offsets count as zero.
-/
theorem searchEntries_eq_windowPage
    (isMatchFn : Entry → Bool)
    (maxPageSize : Int)
    (stored : List Entry)
    (paging : EntryPaging)
    (positive : 1 ≤ paging.cappedPageSize maxPageSize) :
    searchEntries isMatchFn maxPageSize stored paging =
      windowPage (stored.filter isMatchFn)
        (paging.from?.getD 0).toNat
        (paging.cappedPageSize maxPageSize).toNat := by
  unfold searchEntries
  rw [Paginator.consume_filter]
  generalize stored.filter isMatchFn = matching
  generalize offsetShape : (paging.from?.getD 0).toNat = offset
  obtain ⟨room, sizeShape⟩ :
      ∃ room : Nat, paging.cappedPageSize maxPageSize = room + 1 :=
    ⟨(paging.cappedPageSize maxPageSize).toNat - 1, by omega⟩
  have sizeToNat :
      (paging.cappedPageSize maxPageSize).toNat = room + 1 := by
    omega
  rw [sizeToNat]
  by_cases negative : paging.from?.getD 0 < 0
  · -- a negative offset is passed from the first entry on
    have offsetZero : offset = 0 := by
      omega
    subst offsetZero
    rw [Paginator.consume_passedOffset _ matching room]
    · apply Paginator.build_eq_windowPage (Nat.succ_pos room)
      · simp [buildPaginator]
      · simp [buildPaginator, sizeShape]
      · intro full
        simp only [buildPaginator, List.length_take]
        omega
    · exact Int.le_of_lt negative
    · simp [buildPaginator, sizeShape]
  · rw [Paginator.consume_beforeOffset _ matching offset]
    · by_cases enough : offset ≤ matching.length
      · rw [Paginator.consume_passedOffset _ (matching.drop offset) room]
        · apply Paginator.build_eq_windowPage (Nat.succ_pos room)
          · simp [buildPaginator]
          · simp [buildPaginator, sizeShape]
          · intro full
            simp only [buildPaginator, List.length_take,
              List.length_drop]
            omega
        · simp only [buildPaginator, List.length_take]
          omega
        · simp [buildPaginator, sizeShape]
      · -- fewer matches than the offset: the page stays empty
        have dropped : matching.drop offset = [] :=
          List.drop_eq_nil_of_le (by omega)
        rw [dropped]
        apply Paginator.build_eq_windowPage (Nat.succ_pos room)
        · simp [Paginator.consume, buildPaginator, dropped]
        · simp [Paginator.consume, buildPaginator, sizeShape]
        · intro full
          omega
    · simp only [buildPaginator]
      omega
    · simp only [Paginator.isFull, buildPaginator, List.length_nil,
        beq_eq_false_iff_ne]
      omega

end Prescott
