import Prescott.EntrySearch
import Prescott.JsNumbers
import Prescott.ListStatistics

namespace Prescott

/-!
# Aggregated metrics

`aggregateMetric` feeds every matching entry to one accumulator for each
attribute asked for.  An attribute is looked up like any property of a
JavaScript object, so a name that every object inherits is found in entries
that do not carry it.  Numbers are exact: rounding to three digits and the
square root of the standard deviation are left out.
-/

/-- The unary plus on the value of a field. -/
def MetricField.toNumber : MetricField → JsNumber
  | .text value => .ofText value
  | .number value => .finite value

namespace MetricEntry

/-- The fields of an entry by their names. -/
def fields (entry : MetricEntry) : List (String × MetricField) :=
  [("cpu", .text entry.cpu), ("ram", .text entry.ram),
    ("time", .number entry.time)] ++ entry.others

/-- A property of the entry itself. -/
def own? (entry : MetricEntry) (attr : String) : Option MetricField :=
  entry.fields.lookup attr

/-- The properties of `Object.prototype`. -/
def inherited : List String :=
  ["constructor", "__defineGetter__", "__defineSetter__", "hasOwnProperty",
    "__lookupGetter__", "__lookupSetter__", "isPrototypeOf",
    "propertyIsEnumerable", "toString", "valueOf", "__proto__",
    "toLocaleString"]

/-- `+metric[attribute]`, unless the property is `undefined`. -/
def valueOf? (entry : MetricEntry) (attr : String) : Option JsNumber :=
  match entry.own? attr with
  | some field => some field.toNumber
  | none =>
      -- what objects inherit are functions and an object
      if attr ∈ inherited then some .nan else none

end MetricEntry

/-- The state of the five aggregators of an attribute. -/
structure MetricValueAccumulator where
  currentMax : JsNumber := .negInfinity
  currentMin : JsNumber := .infinity
  /-- The sum and the counter of the average. -/
  sum : JsNumber := .finite 0
  counter : Nat := 0
  /-- The counter of `cnt`. -/
  count : Nat := 0
  /-- The values of the standard deviation. -/
  values : List JsNumber := []
  deriving DecidableEq

/-- The results for an attribute; `std` is the number under the root. -/
structure MetricValue where
  max : JsNumber
  min : JsNumber
  avg : JsNumber
  cnt : JsNumber
  std : JsNumber
  deriving DecidableEq

namespace MetricValueAccumulator

/-- `buildMetricAttributeAccumulator().add`. -/
def add (accumulator : MetricValueAccumulator) (value : JsNumber) :
    MetricValueAccumulator where
  currentMax := accumulator.currentMax.max value
  currentMin := accumulator.currentMin.min value
  sum := accumulator.sum.add value
  counter := accumulator.counter + 1
  count := accumulator.count + 1
  values := accumulator.values ++ [value]

/-- `values.reduce((acc, val) => acc + val)`. -/
def sumOf : List JsNumber → JsNumber
  | [] => .finite 0
  | first :: rest => rest.foldl JsNumber.add first

/-- `build` of the standard deviation, without the root. -/
def deviation (values : List JsNumber) : JsNumber :=
  if values.isEmpty then
    .finite 0
  else
    let avg := (sumOf values).divCount values.length
    let sqrSum :=
      values.foldl (fun (acc val : JsNumber) => acc.add (val.sub avg).square) (.finite 0)
    sqrSum.divCount values.length

/-- `buildMetricAttributeAccumulator().build`. -/
def build (accumulator : MetricValueAccumulator) : MetricValue where
  max :=
    if JsNumber.negInfinity.less accumulator.currentMax then
      accumulator.currentMax
    else
      .finite 0
  min :=
    if accumulator.currentMin.less .infinity then
      accumulator.currentMin
    else
      .finite 0
  avg :=
    if accumulator.counter = 0 then
      .finite 0
    else
      accumulator.sum.divCount accumulator.counter
  cnt := .finite accumulator.count
  std := deviation accumulator.values

end MetricValueAccumulator

/-- The accumulators of the unique attributes. -/
structure MetricEntryAccumulator where
  uniqueAttributes : List String
  accumulatorsMap : String → MetricValueAccumulator

/-- `buildMetricEntryAccumulator`; a set keeps the order of first insertion. -/
def buildMetricEntryAccumulator (attributes : List String) :
    MetricEntryAccumulator where
  uniqueAttributes := attributes.eraseDups
  accumulatorsMap := fun _ => {}

namespace MetricEntryAccumulator

/-- One turn of the loop over the attributes. -/
def addAttribute
    (metric : MetricEntry)
    (accumulatorsMap : String → MetricValueAccumulator)
    (attr : String) :
    String → MetricValueAccumulator :=
  match metric.valueOf? attr with
  | none => accumulatorsMap
  | some value =>
      Function.update accumulatorsMap attr
        ((accumulatorsMap attr).add value)

/-- One entry is added under every attribute. -/
def add (accumulator : MetricEntryAccumulator) (metric : MetricEntry) :
    MetricEntryAccumulator :=
  { accumulator with
    accumulatorsMap :=
      accumulator.uniqueAttributes.foldl (addAttribute metric)
        accumulator.accumulatorsMap }

/-- The own properties of the object that `build` fills. -/
def build (accumulator : MetricEntryAccumulator) :
    List (String × MetricValue) :=
  -- an assignment to `__proto__` sets the prototype and creates no property
  (accumulator.uniqueAttributes.filter (· ≠ "__proto__")).map fun attr =>
    (attr, (accumulator.accumulatorsMap attr).build)

end MetricEntryAccumulator

/-- `apply.split(',')`. -/
def attributesOf (apply : String) : List String :=
  (apply.toList.splitOn ',').map String.ofList

/-- `aggregateMetric` on the entries stored for a run. -/
def aggregateMetric
    (stored : List MetricEntry)
    (search : EntrySearchDto)
    (apply : String) :
    List (String × MetricValue) :=
  let isMatch := buildMetricMatcher search
  let accumulator :=
    stored.foldl
      (fun (accumulator : MetricEntryAccumulator) metric =>
        if isMatch metric then accumulator.add metric else accumulator)
      (buildMetricEntryAccumulator (attributesOf apply))
  accumulator.build

namespace MetricValueAccumulator

/-- What an accumulator holds after so many values. -/
theorem foldl_add
    (accumulator : MetricValueAccumulator)
    (numbers : List JsNumber) :
    numbers.foldl add accumulator =
      { currentMax := numbers.foldl JsNumber.max accumulator.currentMax
        currentMin := numbers.foldl JsNumber.min accumulator.currentMin
        sum := numbers.foldl JsNumber.add accumulator.sum
        counter := accumulator.counter + numbers.length
        count := accumulator.count + numbers.length
        values := accumulator.values ++ numbers } := by
  induction numbers generalizing accumulator with
  | nil =>
      simp
  | cons first rest inductionHypothesis =>
      rw [List.foldl_cons, inductionHypothesis]
      simp only [add, List.foldl_cons, List.length_cons, List.append_assoc,
        List.singleton_append, mk.injEq, true_and, and_true]
      exact ⟨by omega, by omega⟩

end MetricValueAccumulator

namespace JsNumber

/-- A fold of an operation on finite numbers is a fold on their values. -/
theorem foldl_finite
    {operation : JsNumber → JsNumber → JsNumber}
    {onValues : Rat → Rat → Rat}
    (agrees :
      ∀ left right,
        operation (.finite left) (.finite right) =
          .finite (onValues left right))
    (first : Rat)
    (values : List Rat) :
    (values.map finite).foldl operation (.finite first) =
      .finite (values.foldl onValues first) := by
  induction values generalizing first with
  | nil =>
      rfl
  | cons second rest inductionHypothesis =>
      rw [List.map_cons, List.foldl_cons, agrees, inductionHypothesis]
      rfl

end JsNumber

namespace MetricValueAccumulator

theorem sumOf_finite
    (first : Rat)
    (rest : List Rat) :
    sumOf ((first :: rest).map JsNumber.finite) =
      .finite (first :: rest).sum := by
  rw [List.map_cons, sumOf, JsNumber.foldl_finite fun _ _ => rfl,
    List.sum_eq_foldl, List.foldl_cons, zero_add]

open ListStatistics in
theorem deviation_finite
    (first : Rat)
    (rest : List Rat) :
    deviation ((first :: rest).map JsNumber.finite) =
      .finite (variance (first :: rest)) := by
  have isMean :
      (sumOf ((first :: rest).map JsNumber.finite)).divCount
          ((first :: rest).map JsNumber.finite).length =
        .finite (mean (first :: rest)) := by
    rw [sumOf_finite, List.length_map]
    rfl
  have sqrSum
      (avg : Rat) :
      ((first :: rest).map JsNumber.finite).foldl
          (fun (acc val : JsNumber) => acc.add (val.sub (.finite avg)).square)
          (.finite 0) =
        .finite
          ((first :: rest).map fun value => (value - avg) ^ 2).sum := by
    have agrees
        (left right : Rat) :
        (JsNumber.finite left).add
            ((JsNumber.finite right).sub (.finite avg)).square =
          .finite (left + (right - avg) ^ 2) := by
      rw [sub_eq_add_neg]
      rfl
    rw [JsNumber.foldl_finite agrees, List.sum_eq_foldl, List.foldl_map]
  unfold deviation
  rw [if_neg (by simp), isMean]
  simp only
  rw [sqrSum, List.length_map]
  rfl

open ListStatistics in
/-- The results for finite values, of which there is at least one. -/
theorem build_finite
    (first : Rat)
    (rest : List Rat) :
    (((first :: rest).map JsNumber.finite).foldl add {}).build =
      { max := .finite (rest.foldl max first)
        min := .finite (rest.foldl min first)
        avg := .finite (mean (first :: rest))
        cnt := .finite (first :: rest).length
        std := .finite (variance (first :: rest)) } := by
  have greatest :
      ((first :: rest).map JsNumber.finite).foldl JsNumber.max .negInfinity =
        .finite (rest.foldl max first) :=
    JsNumber.foldl_finite (fun _ _ => rfl) first rest
  have least :
      ((first :: rest).map JsNumber.finite).foldl JsNumber.min .infinity =
        .finite (rest.foldl min first) :=
    JsNumber.foldl_finite (fun _ _ => rfl) first rest
  have sum :
      ((first :: rest).map JsNumber.finite).foldl JsNumber.add (.finite 0) =
        .finite (first :: rest).sum := by
    rw [JsNumber.foldl_finite (fun _ _ => rfl), ← List.sum_eq_foldl]
  rw [foldl_add]
  unfold build
  simp only
  rw [greatest, least, sum, List.nil_append, deviation_finite]
  simp only [Nat.zero_add, List.length_map]
  rfl

end MetricValueAccumulator

/-- Every attribute is fed once for each entry. -/
theorem nodup_eraseDups
    {α : Type}
    [DecidableEq α]
    (list : List α) :
    list.eraseDups.Nodup := by
  induction length : list.length using Nat.strong_induction_on
    generalizing list with
  | _ size inductionHypothesis =>
      cases list with
      | nil =>
          exact List.nodup_nil
      | cons first rest =>
          rw [List.eraseDups_cons, List.nodup_cons, List.mem_eraseDups]
          constructor
          · simp
          · refine inductionHypothesis _ ?_ _ rfl
            rw [← length, List.length_cons]
            exact Nat.lt_succ_of_le (List.length_filter_le ..)

namespace MetricEntryAccumulator

/-- One entry changes the accumulators of the attributes by its values. -/
theorem foldl_addAttribute
    {attributes : List String}
    (nodup : attributes.Nodup)
    (metric : MetricEntry)
    (accumulatorsMap : String → MetricValueAccumulator)
    (attr : String) :
    attributes.foldl (addAttribute metric) accumulatorsMap attr =
      if attr ∈ attributes then
        (metric.valueOf? attr).toList.foldl MetricValueAccumulator.add
          (accumulatorsMap attr)
      else
        accumulatorsMap attr := by
  induction attributes generalizing accumulatorsMap with
  | nil =>
      simp
  | cons first rest inductionHypothesis =>
      obtain ⟨notLater, restNodup⟩ := List.nodup_cons.mp nodup
      rw [List.foldl_cons, inductionHypothesis restNodup]
      by_cases isFirst : attr = first
      · subst isFirst
        rw [if_neg notLater, if_pos List.mem_cons_self]
        unfold addAttribute
        cases metric.valueOf? attr with
        | none =>
            rfl
        | some value =>
            exact Function.update_self ..
      · have same :
            addAttribute metric accumulatorsMap first attr =
              accumulatorsMap attr := by
          unfold addAttribute
          cases metric.valueOf? first with
          | none =>
              rfl
          | some value =>
              exact Function.update_of_ne isFirst ..
        rw [same]
        simp [isFirst]

/-- Feeding entries leaves the attributes as they are. -/
theorem uniqueAttributes_foldl_add
    (accumulator : MetricEntryAccumulator)
    (entries : List MetricEntry) :
    (entries.foldl add accumulator).uniqueAttributes =
      accumulator.uniqueAttributes := by
  induction entries generalizing accumulator with
  | nil =>
      rfl
  | cons first rest inductionHypothesis =>
      exact inductionHypothesis (accumulator.add first)

/-- An attribute is fed with what its lookups in the entries yield. -/
theorem accumulatorsMap_foldl_add
    {accumulator : MetricEntryAccumulator}
    {attr : String}
    (nodup : accumulator.uniqueAttributes.Nodup)
    (member : attr ∈ accumulator.uniqueAttributes)
    (entries : List MetricEntry) :
    (entries.foldl add accumulator).accumulatorsMap attr =
      (entries.filterMap fun entry => entry.valueOf? attr).foldl
        MetricValueAccumulator.add (accumulator.accumulatorsMap attr) := by
  induction entries generalizing accumulator with
  | nil =>
      rfl
  | cons first rest inductionHypothesis =>
      have fed :
          (accumulator.add first).accumulatorsMap attr =
            (first.valueOf? attr).toList.foldl MetricValueAccumulator.add
              (accumulator.accumulatorsMap attr) := by
        unfold add
        simp only
        rw [foldl_addAttribute nodup, if_pos member]
      have reached :=
        @inductionHypothesis (accumulator.add first) nodup member
      rw [List.foldl_cons, reached, fed]
      cases shape : first.valueOf? attr with
      | none =>
          simp only [List.filterMap_cons, shape]
          rfl
      | some value =>
          simp only [List.filterMap_cons, shape]
          rfl

end MetricEntryAccumulator

/-- The numbers that the accumulator of an attribute is fed with. -/
def foundValues (entries : List MetricEntry) (attr : String) :
    List JsNumber :=
  entries.filterMap fun entry => entry.valueOf? attr

theorem lookup_map
    {α : Type}
    {build : String → α}
    {attributes : List String}
    {attr : String} :
    (attributes.map fun attr => (attr, build attr)).lookup attr =
      if attr ∈ attributes then some (build attr) else none := by
  induction attributes with
  | nil =>
      rfl
  | cons first rest inductionHypothesis =>
      rw [List.map_cons, List.lookup_cons]
      by_cases isFirst : attr = first
      · subst isFirst
        simp
      · rw [beq_eq_false_iff_ne.mpr isFirst]
        simpa [isFirst] using inductionHypothesis

/-- The results are those of the attributes asked for, each from its values. -/
theorem aggregateMetric_eq
    (stored : List MetricEntry)
    (search : EntrySearchDto)
    (apply : String) :
    aggregateMetric stored search apply =
      ((attributesOf apply).eraseDups.filter (· ≠ "__proto__")).map fun attr =>
        (attr,
          ((foundValues (stored.filter (buildMetricMatcher search))
              attr).foldl MetricValueAccumulator.add {}).build) := by
  unfold aggregateMetric
  simp only
  rw [← List.foldl_filter]
  unfold MetricEntryAccumulator.build
  rw [MetricEntryAccumulator.uniqueAttributes_foldl_add]
  refine List.map_congr_left fun attr member => ?_
  rw [MetricEntryAccumulator.accumulatorsMap_foldl_add (nodup_eraseDups _)
    (List.mem_of_mem_filter member)]
  rfl

/-- Every field of the entry is a number. -/
def MetricEntry.IsNumeric (entry : MetricEntry) : Prop :=
  ∀ field ∈ entry.fields, ∃ value, field.2.toNumber = .finite value

/-- The values of an attribute in the entries that carry it. -/
def carriedValues (entries : List MetricEntry) (attr : String) : List Rat :=
  entries.filterMap fun entry =>
    match (entry.own? attr).map MetricField.toNumber with
    | some (.finite value) => some value
    | _ => none

/-- The results are the statistics of the values, or zeros where there are none. -/
structure Summarises (values : List Rat) (result : MetricValue) : Prop where
  cnt : result.cnt = .finite values.length
  absent :
    values = [] →
    result.min = .finite 0 ∧ result.max = .finite 0 ∧
      result.avg = .finite 0 ∧ result.std = .finite 0
  present :
    values ≠ [] →
    ∃ least greatest avg squaredStd : Rat,
      result.min = .finite least ∧ result.max = .finite greatest ∧
        result.avg = .finite avg ∧ result.std = .finite squaredStd ∧
        IsLeast {value | value ∈ values} least ∧
        IsGreatest {value | value ∈ values} greatest ∧
        avg * values.length = values.sum ∧
        squaredStd * values.length =
          (values.map fun value => (value - avg) ^ 2).sum ∧
        least ≤ avg ∧ avg ≤ greatest ∧
        (squaredStd = 0 ↔ least = greatest)

open ListStatistics in
/-- The accumulator of an attribute summarises finite values. -/
theorem summarises_finite
    (values : List Rat) :
    Summarises values
      ((values.map JsNumber.finite).foldl MetricValueAccumulator.add
        {}).build := by
  cases values with
  | nil =>
      refine ⟨rfl, fun _ => ⟨rfl, rfl, rfl, rfl⟩, fun present => ?_⟩
      exact (present rfl).elim
  | cons first rest =>
      rw [MetricValueAccumulator.build_finite]
      refine ⟨rfl, nofun, fun present => ?_⟩
      have least := isLeast_foldl_min first rest
      have greatest := isGreatest_foldl_max first rest
      exact ⟨_, _, _, _, rfl, rfl, rfl, rfl, least, greatest,
        mean_mul_length present, variance_mul_length present,
        le_mean present fun value member => least.2 member,
        mean_le present fun value member => greatest.2 member,
        variance_eq_zero_iff least greatest⟩

/-- The statistics of some values do not depend on their order. -/
theorem Summarises.perm
    {values reordered : List Rat}
    {result : MetricValue}
    (summarises : Summarises values result)
    (perm : values.Perm reordered) :
    Summarises reordered result := by
  have sameMembers :
      {value | value ∈ values} = {value | value ∈ reordered} :=
    Set.ext fun value => perm.mem_iff
  constructor
  · rw [← perm.length_eq]
    exact summarises.cnt
  · rintro rfl
    exact summarises.absent perm.eq_nil
  · intro present
    obtain ⟨least, greatest, avg, squaredStd, facts⟩ :=
      summarises.present fun absent => present (absent ▸ perm).nil_eq.symm
    rw [sameMembers, perm.length_eq, perm.sum_eq,
      (perm.map fun value => (value - avg) ^ 2).sum_eq] at facts
    exact ⟨least, greatest, avg, squaredStd, facts⟩

/-- There is one result that summarises some values. -/
theorem Summarises.unique
    {values : List Rat}
    {result other : MetricValue}
    (summarises : Summarises values result)
    (otherSummarises : Summarises values other) :
    result = other := by
  obtain ⟨max, min, avg, cnt, std⟩ := result
  obtain ⟨otherMax, otherMin, otherAvg, otherCnt, otherStd⟩ := other
  obtain ⟨rfl, absent, present⟩ := summarises
  obtain ⟨rfl, otherAbsent, otherPresent⟩ := otherSummarises
  by_cases empty : values = []
  · obtain ⟨rfl, rfl, rfl, rfl⟩ := absent empty
    obtain ⟨rfl, rfl, rfl, rfl⟩ := otherAbsent empty
    rfl
  · have notZero : (values.length : Rat) ≠ 0 :=
      (ListStatistics.length_pos_of_ne_nil empty).ne'
    obtain ⟨least, greatest, mean, square, rfl, rfl, rfl, rfl, isLeast,
      isGreatest, isMean, isSquare, _⟩ := present empty
    obtain ⟨_, _, otherMean, otherSquare, rfl, rfl, rfl, rfl, otherLeast,
      otherGreatest, isOtherMean, isOtherSquare, _⟩ := otherPresent empty
    have sameMean : mean = otherMean :=
      mul_right_cancel₀ notZero (isMean.trans isOtherMean.symm)
    subst sameMean
    have sameSquare : square = otherSquare :=
      mul_right_cancel₀ notZero (isSquare.trans isOtherSquare.symm)
    rw [sameSquare, isLeast.unique otherLeast,
      isGreatest.unique otherGreatest]

/-- What has been found for an attribute that was asked for. -/
theorem lookup_aggregateMetric
    (stored : List MetricEntry)
    (search : EntrySearchDto)
    (apply attr : String) :
    (aggregateMetric stored search apply).lookup attr =
      if attr ∈ attributesOf apply ∧ attr ≠ "__proto__" then
        some
          ((foundValues (stored.filter (buildMetricMatcher search))
              attr).foldl MetricValueAccumulator.add {}).build
      else
        none := by
  rw [aggregateMetric_eq, lookup_map]
  simp only [List.mem_filter, List.mem_eraseDups, decide_eq_true_eq]

/-- Every matching entry carries the attributes that objects inherit. -/
def CarriesInherited
    (stored : List MetricEntry)
    (search : EntrySearchDto)
    (apply : String) :
    Prop :=
  ∀ attr ∈ attributesOf apply,
    attr ∈ MetricEntry.inherited →
    ∀ entry ∈ stored,
      buildMetricMatcher search entry = true →
      (entry.own? attr).isSome = true

/-- A field of a numeric entry is found with its value. -/
theorem MetricEntry.IsNumeric.toNumber_own
    {entry : MetricEntry}
    {attr : String}
    {field : MetricField}
    (numeric : entry.IsNumeric)
    (own : entry.own? attr = some field) :
    ∃ value, field.toNumber = .finite value := by
  refine numeric (attr, field) ?_
  obtain ⟨before, after, shape, _⟩ := List.lookup_eq_some_iff.mp own
  rw [shape]
  simp

/-- Where nothing is inherited, what is found is what is carried. -/
theorem foundValues_eq_carriedValues
    {entries : List MetricEntry}
    {attr : String}
    (numeric : ∀ entry ∈ entries, entry.IsNumeric)
    (carries :
      attr ∈ MetricEntry.inherited →
      ∀ entry ∈ entries, (entry.own? attr).isSome = true) :
    foundValues entries attr =
      (carriedValues entries attr).map JsNumber.finite := by
  unfold foundValues carriedValues
  rw [List.map_filterMap]
  refine List.filterMap_congr fun entry member => ?_
  unfold MetricEntry.valueOf?
  cases own : entry.own? attr with
  | some field =>
      obtain ⟨value, isValue⟩ := (numeric entry member).toNumber_own own
      simp [isValue]
  | none =>
      have notInherited : attr ∉ MetricEntry.inherited := by
        intro inherits
        have carried := carries inherits entry member
        rw [own] at carried
        cases carried
      simp [notInherited]

/-- An entry that inherits an attribute is counted without a value. -/
theorem length_carriedValues_lt
    {entries : List MetricEntry}
    {entry : MetricEntry}
    {attr : String}
    (inherits : attr ∈ MetricEntry.inherited)
    (member : entry ∈ entries)
    (notCarried : entry.own? attr = none) :
    (carriedValues entries attr).length < (foundValues entries attr).length := by
  have found : (foundValues entries attr).length = entries.length := by
    refine List.filterMap_length_eq_length.mpr fun other _ => ?_
    unfold MetricEntry.valueOf?
    cases other.own? attr with
    | some field => rfl
    | none => simp [inherits]
  rw [found]
  refine Nat.lt_of_le_of_ne (List.length_filterMap_le ..) fun same => ?_
  have carried := List.filterMap_length_eq_length.mp same entry member
  rw [notCarried] at carried
  cases carried

/-- The results agree with the entries, and depend on nothing else. -/
structure Agrees
    (stored : List MetricEntry)
    (search : EntrySearchDto)
    (apply : String) :
    Prop where
  summarised :
    ∀ attr ∈ attributesOf apply,
      ∃ result,
        (aggregateMetric stored search apply).lookup attr = some result ∧
          Summarises
            (carriedValues (stored.filter (buildMetricMatcher search)) attr)
            result
  repeated :
    ∀ other : String,
      (∀ attr, attr ∈ attributesOf other ↔ attr ∈ attributesOf apply) →
      ∀ attr,
        (aggregateMetric stored search other).lookup attr =
          (aggregateMetric stored search apply).lookup attr
  reordered :
    ∀ reordered : List MetricEntry,
      reordered.Perm stored →
      aggregateMetric reordered search apply =
        aggregateMetric stored search apply

/--
For every sequence of numeric entries, every filter and every list of
attributes: the aggregated metrics agree with the matching entries exactly
when these carry all attributes asked for that any object inherits, and
`__proto__` is not asked for, under which no result can be stored.
-/
theorem aggregateMetric_agrees_iff
    (stored : List MetricEntry)
    (numeric : ∀ entry ∈ stored, entry.IsNumeric)
    (search : EntrySearchDto)
    (apply : String) :
    Agrees stored search apply ↔
      "__proto__" ∉ attributesOf apply ∧ CarriesInherited stored search apply := by
  constructor
  · intro agrees
    have notAsked : "__proto__" ∉ attributesOf apply := by
      intro asked
      obtain ⟨result, found, _⟩ := agrees.summarised _ asked
      rw [lookup_aggregateMetric, if_neg fun stores => stores.2 rfl] at found
      cases found
    refine ⟨notAsked, fun attr asked inherits entry member isMatch => ?_⟩
    obtain ⟨result, found, summarises⟩ := agrees.summarised attr asked
    have stores : attr ∈ attributesOf apply ∧ attr ≠ "__proto__" :=
      ⟨asked, fun same => notAsked (same ▸ asked)⟩
    rw [lookup_aggregateMetric, if_pos stores, Option.some.injEq] at found
    subst found
    by_contra notCarried
    have fewer :=
      length_carriedValues_lt inherits (List.mem_filter.mpr ⟨member, isMatch⟩)
        (Option.not_isSome_iff_eq_none.mp notCarried)
    have counted := summarises.cnt
    rw [MetricValueAccumulator.foldl_add] at counted
    simp only [MetricValueAccumulator.build, Nat.zero_add, JsNumber.finite.injEq,
      Nat.cast_inj] at counted
    exact (Nat.ne_of_lt fewer) counted.symm
  · rintro ⟨notAsked, carries⟩
    have summarises
        {entries : List MetricEntry}
        {attr : String}
        (perm : entries.Perm stored)
        (asked : attr ∈ attributesOf apply) :
        Summarises
          (carriedValues (stored.filter (buildMetricMatcher search)) attr)
          ((foundValues (entries.filter (buildMetricMatcher search))
              attr).foldl MetricValueAccumulator.add {}).build := by
      have found :
          foundValues (entries.filter (buildMetricMatcher search)) attr =
            (carriedValues (entries.filter (buildMetricMatcher search))
              attr).map JsNumber.finite := by
        refine foundValues_eq_carriedValues ?_ ?_
        · intro entry member
          exact numeric entry (perm.mem_iff.mp (List.mem_filter.mp member).1)
        · intro inherits entry member
          obtain ⟨isEntry, isMatch⟩ := List.mem_filter.mp member
          exact carries attr asked inherits entry (perm.mem_iff.mp isEntry)
            isMatch
      rw [found]
      exact (summarises_finite _).perm ((perm.filter _).filterMap _)
    constructor
    · intro attr asked
      refine ⟨_, ?_, summarises (.refl stored) asked⟩
      exact (lookup_aggregateMetric ..).trans
        (if_pos ⟨asked, fun same => notAsked (same ▸ asked)⟩)
    · intro other sameAttributes attr
      rw [lookup_aggregateMetric, lookup_aggregateMetric]
      simp only [sameAttributes]
    · intro reordered perm
      rw [aggregateMetric_eq, aggregateMetric_eq]
      refine List.map_congr_left fun attr member => ?_
      have asked := List.mem_eraseDups.mp (List.mem_of_mem_filter member)
      rw [(summarises perm asked).unique (summarises (.refl stored) asked)]

/-- An entry with a custom field. -/
def oneMetric : MetricEntry :=
  { cpu := "0.5", ram := "2", time := 0, others := [("disk", .number 3)] }

theorem isNumeric_oneMetric : oneMetric.IsNumeric := by
  intro field member
  simp only [MetricEntry.fields, oneMetric, List.cons_append, List.nil_append,
    List.mem_cons, List.not_mem_nil, or_false] at member
  rcases member with rfl | rfl | rfl | rfl
  · exact ⟨1 / 2, by decide +kernel⟩
  · exact ⟨2, by decide +kernel⟩
  · exact ⟨0, rfl⟩
  · exact ⟨3, rfl⟩

/-- Nothing is inherited under the names of a field and of none. -/
theorem aggregateMetric_agrees_iff_fields :
    Agrees [oneMetric, oneMetric] {} "disk,swap" := by
  refine (aggregateMetric_agrees_iff _ ?_ _ _).mpr ⟨by decide +kernel, ?_⟩
  · intro entry member
    rw [List.mem_pair, or_self] at member
    rw [member]
    exact isNumeric_oneMetric
  · unfold CarriesInherited
    decide +kernel

/-- An entry without `toString` is counted under it, and its value is `NaN`. -/
theorem aggregateMetric_countsInherited :
    oneMetric.IsNumeric ∧
      (aggregateMetric [oneMetric] {} "toString").lookup "toString" =
        some
          { max := .finite 0
            min := .finite 0
            avg := .nan
            cnt := .finite 1
            std := .nan } ∧
      carriedValues [oneMetric] "toString" = [] ∧
      ¬ Agrees [oneMetric] {} "toString" := by
  have found :
      (aggregateMetric [oneMetric] {} "toString").lookup "toString" =
        some
          { max := .finite 0
            min := .finite 0
            avg := .nan
            cnt := .finite 1
            std := .nan } := by
    decide +kernel
  refine ⟨isNumeric_oneMetric, found, by decide +kernel, fun agrees => ?_⟩
  obtain ⟨result, isResult, summarises⟩ :=
    agrees.summarised "toString" (by decide +kernel)
  rw [found, Option.some.injEq] at isResult
  subst isResult
  exact absurd summarises.cnt (by decide +kernel)

end Prescott
