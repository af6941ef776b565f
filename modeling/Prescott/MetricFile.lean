import Prescott.EntryFiles
import Prescott.MetricAggregation

namespace Prescott

/-!
# The metric files

Metric entries are kept like log entries, and an aggregation parses every line
of the file.
-/

/-- A value as it is written. -/
def MetricField.scalar : MetricField → Json.Scalar Rat
  | .text value => .text value.toList
  | .number value => .number value

/-- The value of a member; `null` is none. -/
def MetricField.ofScalar : Json.Scalar Rat → Option MetricField
  | .text content => some (.text (String.ofList content))
  | .number value => some (.number value)
  | .null => none

namespace MetricEntry

/-- A field as a member. -/
def memberOf (field : String × MetricField) : Json.Field Rat :=
  (field.1.toList, field.2.scalar)

/-- The field of a member. -/
def fieldOf (member : Json.Field Rat) : Option (String × MetricField) := do
  let field ← MetricField.ofScalar member.2
  return (String.ofList member.1, field)

/-- The entry with these members, which stand in the order of the fields. -/
def ofMembers (members : List (Json.Field Rat)) : Option MetricEntry := do
  match ← members.mapM fieldOf with
  | (_, .text cpu) :: (_, .text ram) :: (_, .number time) :: others =>
      return { cpu, ram, time := time.num, others }
  | _ => none

theorem fieldOf_memberOf
    (field : String × MetricField) :
    fieldOf (memberOf field) = some field := by
  obtain ⟨key, value⟩ := field
  cases value <;> simp [fieldOf, memberOf, MetricField.scalar, MetricField.ofScalar]

theorem mapM_fieldOf
    (fields : List (String × MetricField)) :
    (fields.map memberOf).mapM fieldOf = some fields := by
  induction fields with
  | nil => rfl
  | cons field rest inductionHypothesis =>
      rw [List.map_cons, List.mapM_cons, fieldOf_memberOf, inductionHypothesis]
      rfl

/-- Metric entries as flat objects. -/
def codec : Json.RecordCodec MetricEntry Rat where
  fields entry := entry.fields.map memberOf
  ofFields := ofMembers
  ofFields_fields entry := by
    rw [ofMembers, mapM_fieldOf]
    rfl

/-- No string of the entry has a line or paragraph separator. -/
def HasNoSeparator (entry : MetricEntry) : Prop :=
  codec.IsReadable entry

instance : DecidablePred HasNoSeparator := fun entry =>
  inferInstanceAs (Decidable (Json.UnseparatedFields (codec.fields entry)))

end MetricEntry

/-- `consumeMetricGenerator`: the text of the file after all entries. -/
def consumeMetricGenerator
    (format : Json.NumberFormat Rat)
    (metricGenerator : List MetricEntry) :
    List Char :=
  MetricEntry.codec.text format metricGenerator

/-- `searchMetric` on the text of a file. -/
def searchMetricFile
    (format : Json.NumberFormat Rat)
    (file : List Char)
    (dto : EntrySearchDto)
    (paging : EntryPaging) :
    Except AppError (EntryPage MetricEntry) :=
  searchFile (MetricEntry.codec.ofLine format) (buildMetricMatcher dto) file paging

/-- The loop of `aggregateMetric` over the lines of the file. -/
def MetricEntryAccumulator.addLines
    (ofLine : List Char → Option MetricEntry)
    (isMatch : MetricEntry → Bool) :
    MetricEntryAccumulator →
    List (List Char) →
    Except AppError MetricEntryAccumulator
  | accumulator, [] => .ok accumulator
  | accumulator, line :: rest =>
      match ofLine line with
      | none => .error unparsable
      | some metric =>
          if isMatch metric then
            addLines ofLine isMatch (accumulator.add metric) rest
          else
            addLines ofLine isMatch accumulator rest

/-- `aggregateMetric` on the text of a file. -/
def aggregateMetricFile
    (format : Json.NumberFormat Rat)
    (file : List Char)
    (search : EntrySearchDto)
    (apply : String) :
    Except AppError (List (String × MetricValue)) :=
  ((buildMetricEntryAccumulator (attributesOf apply)).addLines
    (MetricEntry.codec.ofLine format) (buildMetricMatcher search)
    (readLines file)).map MetricEntryAccumulator.build

section Readable

variable {format : Json.NumberFormat Rat}
variable {entries : List MetricEntry}

/-- A search in the file of readable entries is a search in the entries. -/
theorem searchMetricFile_eq_searchMetric
    (noSeparator : ∀ entry ∈ entries, entry.HasNoSeparator)
    (dto : EntrySearchDto)
    (paging : EntryPaging) :
    searchMetricFile format (consumeMetricGenerator format entries) dto paging =
      searchMetric entries dto paging :=
  searchFile_readable noSeparator (buildMetricMatcher dto) paging

/-- Adding the lines of entries is adding the entries that match. -/
theorem MetricEntryAccumulator.addLines_lines
    (isMatch : MetricEntry → Bool)
    (accumulator : MetricEntryAccumulator)
    (entries : List MetricEntry) :
    accumulator.addLines (MetricEntry.codec.ofLine format) isMatch
        (entries.map (MetricEntry.codec.line format)) =
      .ok (entries.foldl
        (fun (accumulator : MetricEntryAccumulator) metric =>
          if isMatch metric then accumulator.add metric else accumulator)
        accumulator) := by
  induction entries generalizing accumulator with
  | nil => rfl
  | cons entry rest inductionHypothesis =>
      simp only [List.map_cons, addLines, Json.RecordCodec.ofLine_line, List.foldl_cons]
      cases isMatch entry with
      | true => exact inductionHypothesis _
      | false => exact inductionHypothesis _

/-- An aggregation of the file of readable entries is one of the entries. -/
theorem aggregateMetricFile_eq_aggregateMetric
    (noSeparator : ∀ entry ∈ entries, entry.HasNoSeparator)
    (search : EntrySearchDto)
    (apply : String) :
    aggregateMetricFile format (consumeMetricGenerator format entries) search apply =
      .ok (aggregateMetric entries search apply) := by
  rw [aggregateMetricFile, consumeMetricGenerator, readLines_entries format noSeparator,
    MetricEntryAccumulator.addLines_lines]
  rfl

end Readable

end Prescott
