import Prescott.EntrySearch

namespace Prescott

/-!
# Following pages

A client that wants every matching entry asks without `from` and repeats the
request with `from` set to the returned `next` as long as there is one.  The
traversal is compared with the list of matching entries.
-/

variable {Entry : Type}

/-- The pages received by a client that starts at `from?` and follows `next`. -/
inductive Follows
    (search : EntryPaging → Except AppError (EntryPage Entry))
    (pageSize : Option Int) :
    Option Int → List (EntryPage Entry) → Prop where
  | last
      {from? : Option Int}
      {page : EntryPage Entry}
      (answered : search { from?, pageSize } = .ok page)
      (noNext : page.next = none) :
      Follows search pageSize from? [page]
  | more
      {from? : Option Int}
      {page : EntryPage Entry}
      {offset : Int}
      {rest : List (EntryPage Entry)}
      (answered : search { from?, pageSize } = .ok page)
      (hasNext : page.next = some offset)
      (later : Follows search pageSize (some offset) rest) :
      Follows search pageSize from? (page :: rest)

/--
The traversal ends, and the entries of its pages are exactly `matching`, in
order and each once.
-/
def Lossless
    (search : EntryPaging → Except AppError (EntryPage Entry))
    (pageSize : Option Int)
    (matching : List Entry) : Prop :=
  ∃ pages,
    Follows search pageSize none pages ∧
      pages.flatMap EntryPage.entries = matching

/-- The page size a request asks for, at least one when it is given. -/
def ValidPageSize (pageSize : Option Int) : Prop :=
  ∀ size, pageSize = some size → 1 ≤ size

/-- The page size in effect: the requested one, capped at 1000. -/
def effectivePageSize (pageSize : Option Int) : Nat :=
  (min maxEntryPageSize (pageSize.getD maxEntryPageSize)).toNat

theorem effectivePageSize_pos
    {pageSize : Option Int}
    (valid : ValidPageSize pageSize) :
    0 < effectivePageSize pageSize := by
  unfold effectivePageSize maxEntryPageSize
  cases pageSize with
  | none =>
      simp
  | some size =>
      have atLeastOne := valid size rfl
      simp only [Option.getD_some]
      omega

namespace Follows

variable {search : EntryPaging → Except AppError (EntryPage Entry)}
variable {matching : List Entry}
variable {pageSize : Option Int}
variable {size : Nat}

/-- From an offset on, a traversal collects at most the matches that remain. -/
theorem length_le
    (windowed :
      ∀ from?,
        search { from?, pageSize } =
          .ok (windowPage matching (from?.getD 0).toNat size))
    {from? : Option Int}
    {pages : List (EntryPage Entry)}
    (follows : Follows search pageSize from? pages) :
    (pages.flatMap EntryPage.entries).length ≤
      matching.length - (from?.getD 0).toNat := by
  induction follows with
  | @last from? page answered noNext =>
      rw [windowed] at answered
      cases answered
      simp only [windowPage, List.flatMap_cons, List.flatMap_nil,
        List.append_nil, List.length_take, List.length_drop]
      omega
  | @more from? page offset rest answered hasNext later inductionHypothesis =>
      rw [windowed] at answered
      cases answered
      simp only [windowPage] at hasNext
      split at hasNext
      · cases hasNext
        simp only [Option.getD_some, Int.toNat_natCast]
          at inductionHypothesis
        simp only [windowPage, List.flatMap_cons, List.length_append,
          List.length_take, List.length_drop]
        omega
      · cases hasNext

/--
When some match lies beyond the first page, the first page is followed by a
request that starts one entry too late, so at least one match is missing.
-/
theorem length_lt_of_beyondFirstPage
    (windowed :
      ∀ from?,
        search { from?, pageSize } =
          .ok (windowPage matching (from?.getD 0).toNat size))
    (beyond : size < matching.length)
    {pages : List (EntryPage Entry)}
    (follows : Follows search pageSize none pages) :
    (pages.flatMap EntryPage.entries).length < matching.length := by
  cases follows with
  | last answered noNext =>
      rw [windowed] at answered
      cases answered
      simp only [windowPage, Option.getD_none, Int.toNat_zero] at noNext
      split at noNext
      · cases noNext
      · omega
  | @more _ page offset rest answered hasNext later =>
      rw [windowed] at answered
      cases answered
      simp only [windowPage, Option.getD_none, Int.toNat_zero] at hasNext
      split at hasNext
      · cases hasNext
        have restBound := length_le windowed later
        simp only [Option.getD_some, Int.toNat_natCast] at restBound
        simp only [windowPage, Option.getD_none, Int.toNat_zero,
          List.drop_zero, List.flatMap_cons, List.length_append,
          List.length_take]
        omega
      · cases hasNext

/-- When all matches fit on one page, the traversal ends with all of them. -/
theorem exists_of_fits
    (windowed :
      ∀ from?,
        search { from?, pageSize } =
          .ok (windowPage matching (from?.getD 0).toNat size))
    (fits : matching.length ≤ size) :
    Lossless search pageSize matching := by
  by_cases exact : matching.length = size
  · -- a full first page is followed by one empty page
    have firstNext :
        (windowPage matching 0 size).next =
          some ((0 + size + 1 : Nat) : Int) := by
      simp [windowPage, exact]
    have lastNext :
        (windowPage matching (0 + size + 1) size).next = none := by
      simp [windowPage, exact]
    refine ⟨[windowPage matching 0 size,
        windowPage matching (0 + size + 1) size],
      .more (windowed none) firstNext
        (.last (windowed (some _)) lastNext), ?_⟩
    simp [windowPage, ← exact]
  · have onlyNext : (windowPage matching 0 size).next = none := by
      simp only [windowPage]
      rw [if_neg]
      omega
    refine ⟨[windowPage matching 0 size],
      .last (windowed none) onlyNext, ?_⟩
    simp [windowPage, List.take_of_length_le fits]

/-- A windowed search is lossless exactly when one page holds all matches. -/
theorem lossless_iff_fits
    (windowed :
      ∀ from?,
        search { from?, pageSize } =
          .ok (windowPage matching (from?.getD 0).toNat size)) :
    Lossless search pageSize matching ↔ matching.length ≤ size := by
  constructor
  · rintro ⟨pages, follows, allEntries⟩
    by_contra beyond
    have missing :=
      length_lt_of_beyondFirstPage windowed (Nat.lt_of_not_le beyond) follows
    rw [allEntries] at missing
    exact Nat.lt_irrefl _ missing
  · exact exists_of_fits windowed

end Follows

/-- Every log search with a valid filter returns a window of the matches. -/
theorem searchLog_windowed
    {regExp : RegExpCompiler}
    {dto : EntrySearchDto}
    {isMatch : LogEntry → Bool}
    (compiled : buildLogMatcher regExp dto = .ok isMatch)
    (stored : List LogEntry)
    {pageSize : Option Int}
    (valid : ValidPageSize pageSize)
    (from? : Option Int) :
    searchLog regExp stored dto { from?, pageSize } =
      .ok (windowPage (stored.filter isMatch)
        (from?.getD 0).toNat (effectivePageSize pageSize)) := by
  have positive := effectivePageSize_pos valid
  unfold effectivePageSize at positive
  unfold searchLog
  rw [compiled]
  simp only [Except.map]
  rw [searchEntries_eq_windowPage]
  · rfl
  · change 1 ≤ min maxEntryPageSize (pageSize.getD maxEntryPageSize)
    omega

/-- Every metric search returns a window of the matches. -/
theorem searchMetric_windowed
    (dto : EntrySearchDto)
    (stored : List MetricEntry)
    {pageSize : Option Int}
    (valid : ValidPageSize pageSize)
    (from? : Option Int) :
    searchMetric stored dto { from?, pageSize } =
      .ok (windowPage (stored.filter (buildMetricMatcher dto))
        (from?.getD 0).toNat (effectivePageSize pageSize)) := by
  have positive := effectivePageSize_pos valid
  unfold effectivePageSize at positive
  unfold searchMetric
  rw [searchEntries_eq_windowPage]
  · rfl
  · change 1 ≤ min maxEntryPageSize (pageSize.getD maxEntryPageSize)
    omega

/--
Following the pages of a log search or of a metric search yields every match
exactly when all matches fit on the first page: `next` is one too large, so
each further request skips an entry.
-/
theorem followingPages_lossless_iff
    (regExp : RegExpCompiler)
    (dto : EntrySearchDto)
    (isMatch : LogEntry → Bool)
    (compiled : buildLogMatcher regExp dto = .ok isMatch)
    (logs : List LogEntry)
    (metrics : List MetricEntry)
    (pageSize : Option Int)
    (valid : ValidPageSize pageSize) :
    (Lossless (searchLog regExp logs dto) pageSize
        (logs.filter isMatch) ↔
      (logs.filter isMatch).length ≤ effectivePageSize pageSize) ∧
    (Lossless (searchMetric metrics dto) pageSize
        (metrics.filter (buildMetricMatcher dto)) ↔
      (metrics.filter (buildMetricMatcher dto)).length ≤
        effectivePageSize pageSize) :=
  ⟨Follows.lossless_iff_fits
      (searchLog_windowed compiled logs valid),
    Follows.lossless_iff_fits
      (searchMetric_windowed dto metrics valid)⟩

/-- Three log entries, read with an empty filter and a page size of one. -/
def threeLogEntries : List LogEntry :=
  [⟨.stdout, some 0, "a"⟩, ⟨.stdout, some 1, "b"⟩, ⟨.stdout, some 2, "c"⟩]

/-- The empty filter compiles and three entries do not fit on a page of one. -/
theorem followingPages_lossless_iff_threeEntries :
    ValidPageSize (some 1) ∧
      (Lossless
          (searchLog (fun _ => none) threeLogEntries {}) (some 1)
          threeLogEntries ↔
        threeLogEntries.length ≤ effectivePageSize (some 1)) := by
  have valid : ValidPageSize (some 1) := by
    intro size given
    cases given
    exact Int.le_refl 1
  exact ⟨valid,
    (followingPages_lossless_iff (fun _ => none) {} (fun _ => true) rfl
      threeLogEntries [] (some 1) valid).1⟩

/--
With pages of one entry the traversal of three entries returns the first and
the third: the second request asks for offset two.
-/
theorem followingPages_skips_second :
    ∃ pages,
      Follows (searchLog (fun _ => none) threeLogEntries {})
        (some 1) none pages ∧
      pages.flatMap EntryPage.entries =
        [⟨.stdout, some 0, "a"⟩, ⟨.stdout, some 2, "c"⟩] ∧
      ¬ Lossless (searchLog (fun _ => none) threeLogEntries {})
        (some 1) threeLogEntries := by
  have valid : ValidPageSize (some 1) := by
    intro size given
    cases given
    exact Int.le_refl 1
  have compiled :
      buildLogMatcher (fun _ => none) {} = .ok (fun _ => true) :=
    rfl
  have windowed := searchLog_windowed compiled threeLogEntries valid
  refine ⟨_,
    .more (windowed none) rfl
      (.more (windowed (some 2)) rfl
        (.last (windowed (some 4)) rfl)), ?_, ?_⟩
  · rfl
  · intro lossless
    have fits :=
      (Follows.lossless_iff_fits windowed).mp lossless
    exact absurd fits (by decide)

end Prescott
