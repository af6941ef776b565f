import Prescott.PageTraversal

namespace Prescott

/-!
# One page

What a single request gets.  With a page size of at least one the page is a
window of the matching entries.  Other page sizes pass the cap: the scan stops
when the page has exactly `pageSize` entries, and a page that grows never gets
back to a size it has passed.
-/

variable {Entry : Type}

/-- The page is the window a request asks for, and it tells whether it is full. -/
structure IsWindow
    (matching : List Entry)
    (paging : EntryPaging)
    (page : EntryPage Entry) :
    Prop where
  entries :
    page.entries =
      (matching.drop (max 0 (paging.from?.getD 0)).toNat).take
        (effectivePageSize paging.pageSize)
  next :
    page.next.isSome = true ↔
      page.entries.length = effectivePageSize paging.pageSize

/-- An absent or negative offset counts as zero. -/
theorem isWindow_windowPage
    {matching : List Entry}
    {paging : EntryPaging}
    (valid : ValidPageSize paging.pageSize) :
    IsWindow matching paging
      (windowPage matching (paging.from?.getD 0).toNat
        (effectivePageSize paging.pageSize)) := by
  have positive := effectivePageSize_pos valid
  have sameOffset :
      (max 0 (paging.from?.getD 0)).toNat = (paging.from?.getD 0).toNat := by
    omega
  constructor
  · rw [sameOffset]
    rfl
  · simp only [windowPage, List.length_take, List.length_drop]
    split
    · simp only [Option.isSome_some, true_iff]
      omega
    · simp only [Option.isSome_none, Bool.false_eq_true, false_iff]
      omega

/--
For every stored sequence, filter and offset, and every page size that is
absent or at least one: the page of a log search, and that of a metric search,
is the specified window of the matches.
-/
theorem searches_returnWindow
    (paging : EntryPaging)
    (valid : ValidPageSize paging.pageSize) :
    (∀ (regExp : RegExpCompiler) (dto : EntrySearchDto)
        (isMatch : LogEntry → Bool),
      buildLogMatcher regExp dto = .ok isMatch →
      ∀ stored : List LogEntry,
        ∃ page,
          searchLog regExp stored dto paging = .ok page ∧
            IsWindow (stored.filter isMatch) paging page) ∧
    ∀ (dto : EntrySearchDto) (stored : List MetricEntry),
      ∃ page,
        searchMetric stored dto paging = .ok page ∧
          IsWindow (stored.filter (buildMetricMatcher dto)) paging page := by
  constructor
  · intro regExp dto isMatch compiled stored
    exact ⟨_, searchLog_windowed compiled stored valid paging.from?,
      isWindow_windowPage valid⟩
  · intro dto stored
    exact ⟨_, searchMetric_windowed dto stored valid paging.from?,
      isWindow_windowPage valid⟩

/-- The second page of one entry of three, asked for with a filter. -/
theorem searches_returnWindow_second :
    ∃ page,
      searchLog (fun _ => none) threeLogEntries
          { fromDate := some ⟨some 1⟩ } { from? := some 1, pageSize := some 1 } =
        .ok page ∧
      page.entries = [⟨.stdout, some 2, "c"⟩] ∧ page.next.isSome = true := by
  have valid : ValidPageSize (some 1) := by
    intro size given
    cases given
    exact Int.le_refl 1
  obtain ⟨page, answered, isWindow⟩ :=
    (searches_returnWindow { from? := some 1, pageSize := some 1 } valid).1
      (fun _ => none) { fromDate := some ⟨some 1⟩ } _ rfl threeLogEntries
  have entries : page.entries = [⟨.stdout, some 2, "c"⟩] :=
    isWindow.entries.trans (by decide)
  refine ⟨page, answered, entries, isWindow.next.mpr ?_⟩
  rw [entries]
  rfl

namespace Paginator

/-- A page that is as large as it may be takes every further match. -/
theorem consume_oversized
    (paginator : Paginator Entry)
    (matching : List Entry)
    (passed : paginator.fromIdx ≤ paginator.matchedCounter)
    (oversized :
      paginator.pageSize ≤ (paginator.matchedEntries.length : Int)) :
    (paginator.consume (fun _ => true) matching).matchedEntries =
      paginator.matchedEntries ++ matching := by
  induction matching generalizing paginator with
  | nil =>
      simp [consume]
  | cons entry rest inductionHypothesis =>
      have notFull :
          ((paginator.matchedEntries.length : Int) + 1 ==
            paginator.pageSize) = false := by
        rw [beq_eq_false_iff_ne]
        omega
      rw [consume, process_passedOffset entry passed, notFull]
      simp only
      rw [inductionHypothesis]
      · simp
      · simp only
        omega
      · simp only [List.length_append, List.length_singleton]
        omega

end Paginator

/-- A negative page size lets every match from the offset on through. -/
theorem searchEntries_negativePageSize
    (isMatchFn : Entry → Bool)
    (maxPageSize : Int)
    (stored : List Entry)
    (paging : EntryPaging)
    (negative : paging.cappedPageSize maxPageSize < 0) :
    (searchEntries isMatchFn maxPageSize stored paging).entries =
      (stored.filter isMatchFn).drop (paging.from?.getD 0).toNat := by
  unfold searchEntries Paginator.build
  rw [Paginator.consume_filter]
  simp only
  generalize stored.filter isMatchFn = matching
  by_cases passed : paging.from?.getD 0 ≤ 0
  · have noOffset : (paging.from?.getD 0).toNat = 0 := by
      omega
    rw [Paginator.consume_oversized, noOffset]
    · rfl
    · exact passed
    · exact Int.le_of_lt negative
  · have notFull : (buildPaginator paging maxPageSize : Paginator Entry).isFull = false := by
      simp only [Paginator.isFull, buildPaginator, List.length_nil,
        beq_eq_false_iff_ne]
      omega
    have distance :
        (buildPaginator paging maxPageSize : Paginator Entry).matchedCounter +
            (paging.from?.getD 0).toNat =
          (buildPaginator paging maxPageSize : Paginator Entry).fromIdx := by
      simp only [buildPaginator]
      omega
    rw [Paginator.consume_beforeOffset _ matching _ distance notFull]
    by_cases enough : (paging.from?.getD 0).toNat ≤ matching.length
    · rw [Paginator.consume_oversized]
      · rfl
      · simp only [buildPaginator, List.length_take]
        omega
      · exact Int.le_of_lt negative
    · rw [List.drop_eq_nil_of_le (by omega)]
      rfl

/--
A page size of zero is reached by the first match if that is skipped, and by
none otherwise.
-/
theorem searchEntries_zeroPageSize
    (isMatchFn : Entry → Bool)
    (maxPageSize : Int)
    (stored : List Entry)
    (paging : EntryPaging)
    (zero : paging.cappedPageSize maxPageSize = 0) :
    (searchEntries isMatchFn maxPageSize stored paging).entries =
      if 1 ≤ paging.from?.getD 0 then [] else stored.filter isMatchFn := by
  unfold searchEntries Paginator.build
  rw [Paginator.consume_filter]
  simp only
  generalize stored.filter isMatchFn = matching
  by_cases skipped : 1 ≤ paging.from?.getD 0
  · rw [if_pos skipped]
    cases matching with
    | nil =>
        rfl
    | cons entry rest =>
        have full : (buildPaginator paging maxPageSize : Paginator Entry).isFull =
            true := by
          simp [Paginator.isFull, buildPaginator, zero]
        rw [Paginator.consume, Paginator.process_beforeOffset, full]
        · rfl
        · simp only [buildPaginator]
          omega
  · rw [if_neg skipped, Paginator.consume_oversized]
    · rfl
    · simp only [buildPaginator]
      omega
    · simp [buildPaginator, zero]

/-- The page has at most `min(pageSize, 1000)` entries, and none below zero. -/
def WithinCap (pageSize : Int) (page : EntryPage Entry) : Prop :=
  (page.entries.length : Int) ≤ max 0 (min pageSize maxEntryPageSize)

/--
The searches that stay within the cap: the page size is at least one, or it is
zero and a match is to be skipped, or no match comes after the offset.
-/
def CapApplies (offset pageSize : Int) (matchCount : Nat) : Prop :=
  1 ≤ pageSize ∨ (pageSize = 0 ∧ 1 ≤ offset) ∨
    (matchCount : Int) ≤ max 0 offset

/-- The scan of a provider stays within the cap exactly there. -/
theorem withinCap_iff
    (isMatchFn : Entry → Bool)
    (stored : List Entry)
    (offset pageSize : Int) :
    WithinCap pageSize
        (searchEntries isMatchFn maxEntryPageSize stored
          { from? := some offset, pageSize := some pageSize }) ↔
      CapApplies offset pageSize (stored.filter isMatchFn).length := by
  have capped :
      EntryPaging.cappedPageSize
          { from? := some offset, pageSize := some pageSize }
          maxEntryPageSize =
        min maxEntryPageSize pageSize :=
    rfl
  unfold WithinCap CapApplies maxEntryPageSize at *
  rcases Int.lt_trichotomy pageSize 0 with negative | rfl | positive
  · rw [searchEntries_negativePageSize _ _ _ _ (by rw [capped]; omega)]
    simp only [Option.getD_some, List.length_drop]
    omega
  · rw [searchEntries_zeroPageSize _ _ _ _ (by rw [capped]; omega)]
    simp only [Option.getD_some]
    by_cases skipped : 1 ≤ offset
    · rw [if_pos skipped]
      simp [skipped]
    · rw [if_neg skipped]
      omega
  · rw [searchEntries_eq_windowPage _ _ _ _ (by rw [capped]; omega), capped]
    simp only [windowPage, List.length_take]
    omega

/--
For every stored sequence, every filter and all integers `from` and `pageSize`:
the page of a log search, and that of a metric search, has at most
`max(0, min(pageSize, 1000))` entries exactly where the cap applies.
-/
theorem searches_withinCap_iff
    (offset pageSize : Int) :
    (∀ (regExp : RegExpCompiler) (dto : EntrySearchDto)
        (isMatch : LogEntry → Bool),
      buildLogMatcher regExp dto = .ok isMatch →
      ∀ stored : List LogEntry,
        (∀ page,
          searchLog regExp stored dto
              { from? := some offset, pageSize := some pageSize } =
            .ok page →
          WithinCap pageSize page) ↔
        CapApplies offset pageSize (stored.filter isMatch).length) ∧
    ∀ (dto : EntrySearchDto) (stored : List MetricEntry),
      (∀ page,
        searchMetric stored dto
            { from? := some offset, pageSize := some pageSize } =
          .ok page →
        WithinCap pageSize page) ↔
      CapApplies offset pageSize
        (stored.filter (buildMetricMatcher dto)).length := by
  constructor
  · intro regExp dto isMatch compiled stored
    rw [← withinCap_iff, searchLog, compiled]
    constructor
    · exact fun within => within _ rfl
    · rintro within page answered
      cases answered
      exact within
  · intro dto stored
    rw [← withinCap_iff]
    constructor
    · exact fun within => within _ rfl
    · rintro within page answered
      cases answered
      exact within

/-- A page size of zero stays within the cap where a match is skipped. -/
theorem searches_withinCap_iff_zero :
    ∀ page,
      searchLog (fun _ => none) threeLogEntries {}
          { from? := some 1, pageSize := some 0 } =
        .ok page →
      WithinCap 0 page :=
  ((searches_withinCap_iff 1 0).1 (fun _ => none) {} _ rfl
    threeLogEntries).mpr (.inr (.inl ⟨rfl, by decide⟩))

/-- A negative page size gets all three entries in one page. -/
theorem searchLog_bypassesCap :
    ∃ page,
      searchLog (fun _ => none) threeLogEntries {}
          { from? := some 0, pageSize := some (-1) } =
        .ok page ∧
      page.entries.length = 3 ∧ ¬ WithinCap (-1) page := by
  refine ⟨_, rfl, by decide, ?_⟩
  unfold WithinCap
  decide

end Prescott
