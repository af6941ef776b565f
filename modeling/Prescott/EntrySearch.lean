import Mathlib.Data.Rat.Defs
import Prescott.Errors
import Prescott.Pagination

namespace Prescott

/-!
# Searching stored log and metric entries

The file providers keep one JSON line per entry.  A search builds a matcher
from the request, scans the lines in stored order and returns one page.  Here
the lines have been read: a search is in the list of entries they parse to.
-/

/-- The maximal page size that both file providers pass to `buildPaginator`. -/
def maxEntryPageSize : Int := 1000

/-- A JavaScript `Date`; `none` is an invalid date, whose time is `NaN`. -/
structure JsDate where
  getTime : Option Int
  deriving Repr, DecidableEq

namespace JsDate

/-- `time >= date.getTime()`; comparing with `NaN` is false. -/
def notAfter (date : JsDate) (time : Int) : Bool :=
  match date.getTime with
  | some dateTime => dateTime ≤ time
  | none => false

/-- `time <= date.getTime()`; comparing with `NaN` is false. -/
def notBefore (date : JsDate) (time : Int) : Bool :=
  match date.getTime with
  | some dateTime => time ≤ dateTime
  | none => false

end JsDate

/-- The filter part of a search request; absent fields are `none`. -/
structure EntrySearchDto where
  fromDate : Option JsDate := none
  toDate : Option JsDate := none
  searchTerm : Option String := none
  deriving Repr, DecidableEq

/-- The stream a log entry comes from. -/
inductive LogEntryStream where
  | stdout
  | stderr
  deriving Repr, DecidableEq

/-- A stored log entry; a time that was `NaN` has become `null`, which is `none`. -/
structure LogEntry where
  stream : LogEntryStream
  time : Option Int
  content : String
  deriving Repr, DecidableEq

/-- The time of an entry in a comparison, where `null` counts as zero. -/
def LogEntry.comparedTime (entry : LogEntry) : Int :=
  entry.time.getD 0

/-- The value of a custom metric: a string or a number. -/
inductive MetricField where
  | text (value : String)
  | number (value : Rat)
  deriving DecidableEq

/-- A metric entry with the custom fields next to the three fixed ones. -/
structure MetricEntry where
  cpu : String
  ram : String
  time : Int
  others : List (String × MetricField) := []
  deriving DecidableEq

/--
The `RegExp` constructor: the `test` method of the compiled expression, or
`none` where the constructor throws a `SyntaxError`.
-/
abbrev RegExpCompiler := String → Option (String → Bool)

/-- The matchers of a log search, in the order they are pushed. -/
def buildLogMatchersList
    (regExp : RegExpCompiler)
    (dto : EntrySearchDto) :
    Except AppError (List (LogEntry → Bool)) :=
  let fromMatchers : List (LogEntry → Bool) :=
    match dto.fromDate with
    | some fromDate => [fun entry => fromDate.notAfter entry.comparedTime]
    | none => []
  let toMatchers : List (LogEntry → Bool) :=
    match dto.toDate with
    | some toDate => [fun entry => toDate.notBefore entry.comparedTime]
    | none => []
  match dto.searchTerm with
  | none => .ok (fromMatchers ++ toMatchers)
  | some searchTerm =>
      -- the empty string is falsy, so it adds no matcher
      if searchTerm = "" then
        .ok (fromMatchers ++ toMatchers)
      else
        match regExp searchTerm with
        | none => .error (.syntaxError "Invalid regular expression")
        | some test =>
            .ok (fromMatchers ++ toMatchers ++
              [fun entry => test entry.content])

/-- The matchers of a metric search; the search term is not looked at. -/
def buildMetricMatchersList
    (dto : EntrySearchDto) :
    List (MetricEntry → Bool) :=
  let fromMatchers : List (MetricEntry → Bool) :=
    match dto.fromDate with
    | some fromDate => [fun entry => fromDate.notAfter entry.time]
    | none => []
  let toMatchers : List (MetricEntry → Bool) :=
    match dto.toDate with
    | some toDate => [fun entry => toDate.notBefore entry.time]
    | none => []
  fromMatchers ++ toMatchers

/-- The loop shared by both matchers: every checker has to accept the entry. -/
def checkAll
    {Entry : Type}
    (checkers : List (Entry → Bool))
    (entry : Entry) :
    Bool :=
  checkers.all fun checker => checker entry

/-- The matcher of a log search, if its search term is a regular expression. -/
def buildLogMatcher
    (regExp : RegExpCompiler)
    (dto : EntrySearchDto) :
    Except AppError (LogEntry → Bool) :=
  (buildLogMatchersList regExp dto).map checkAll

/-- The matcher of a metric search. -/
def buildMetricMatcher (dto : EntrySearchDto) : MetricEntry → Bool :=
  checkAll (buildMetricMatchersList dto)

/-- `searchLog` on the entries stored for a run. -/
def searchLog
    (regExp : RegExpCompiler)
    (stored : List LogEntry)
    (dto : EntrySearchDto)
    (paging : EntryPaging) :
    Except AppError (EntryPage LogEntry) :=
  (buildLogMatcher regExp dto).map fun isMatch =>
    searchEntries isMatch maxEntryPageSize stored paging

/-- `searchMetric` on the entries stored for a run. -/
def searchMetric
    (stored : List MetricEntry)
    (dto : EntrySearchDto)
    (paging : EntryPaging) :
    Except AppError (EntryPage MetricEntry) :=
  .ok (searchEntries (buildMetricMatcher dto) maxEntryPageSize stored paging)

end Prescott
