import Prescott.Errors
import Prescott.JsNumbers
import Mathlib.Algebra.Order.Field.Basic
import Mathlib.Data.Nat.Digits.Defs
import Mathlib.Tactic.Linarith

namespace Prescott

/-!
# Sizes of docker

`docker stats` prints the memory of a container as a decimal with a binary
unit.  The unit is looked for right behind the integer that the size begins
with, so a size with a fraction has none.
-/

/-- The units by their powers of 1024. -/
def sizes : List (List Char) :=
  ["B", "KiB", "MiB", "GiB", "TiB", "PiB", "EiB", "ZiB", "YiB"].map String.toList

/-- The bytes of a size: the whole number before the unit, times the unit. -/
def dockerSizeToBytes (sizeString : List Char) : JsNumber :=
  let value := JsNumber.parseInt sizeString
  let size := sizeString.drop value.printWhole.length
  if size = ['B'] then
    value
  else
    match sizes.findIdx? fun el => el == size with
    | none => value
    | some pow => value.scale (1024 ^ pow)

/-- An entry as it is captured; the text of `ram` is given by its number. -/
structure CapturedMetric where
  ram : JsNumber
  cpu : List Char
  time : Int
  deriving DecidableEq

/-- Reading a property of `undefined` raises a `TypeError`. -/
def definedFor (property : String) : Option (List Char) → Except AppError (List Char)
  | some value => .ok value
  | none =>
      .error (.typeError
        s!"Cannot read properties of undefined (reading '{property}')")

/-- A row of PID count, memory usage and CPU percentage, each if it is there. -/
def formatRawMetric (rawMetric : List (List Char)) (timestamp : Int) :
    Except AppError CapturedMetric := do
  let memUsage ← definedFor "split" rawMetric[1]?
  -- `slice(0, -1)` drops the whitespace before the slash
  let ram := dockerSizeToBytes ((memUsage.splitOn '/').headD []).dropLast
  let cpuPercentage ← definedFor "slice" rawMetric[2]?
  return {
    ram := ram.toFixed 2
    cpu := cpuPercentage.dropLast
    time := timestamp }

/-- A row as `docker stats` prints it: `<pids>`, `<mem> / <limit>` and `<cpu>%`. -/
def statsRow (pids mem limit cpu : List Char) : List (List Char) :=
  [pids, mem ++ ' ' :: '/' :: ' ' :: limit, cpu ++ ['%']]

/-- The memory of a row is what is printed before the slash. -/
theorem formatRawMetric_row
    {mem : List Char}
    (noSlash : '/' ∉ mem)
    (pids limit cpuPercentage : List Char)
    (timestamp : Int) :
    formatRawMetric [pids, mem ++ ' ' :: '/' :: ' ' :: limit, cpuPercentage] timestamp =
      .ok ⟨(dockerSizeToBytes mem).toFixed 2, cpuPercentage.dropLast, timestamp⟩ := by
  have beforeSlash : '/' ∉ mem ++ [' '] := by simp [noSlash]
  have used :
      (mem ++ ' ' :: '/' :: ' ' :: limit).splitOn '/' =
        (mem ++ [' ']) :: (' ' :: limit).splitOn '/' := by
    rw [List.append_cons, List.splitOn_append_cons_self_of_not_mem beforeSlash]
  simp [formatRawMetric, definedFor, used, bind, Except.bind, pure, Except.pure]

theorem formatRawMetric_statsRow
    {mem : List Char}
    (noSlash : '/' ∉ mem)
    (pids limit cpu : List Char)
    (timestamp : Int) :
    formatRawMetric (statsRow pids mem limit cpu) timestamp =
      .ok ⟨(dockerSizeToBytes mem).toFixed 2, cpu, timestamp⟩ := by
  rw [statsRow, formatRawMetric_row noSlash, List.dropLast_concat]

/--
A size as docker prints it: of at most four digits before the point, then
digits after the point if there is one, and a unit.
-/
structure DockerSize where
  whole : Nat
  fraction : List (Fin 10) := []
  unit : Fin sizes.length
  fourDigits : whole < 10 ^ 4

namespace DockerSize

/-- What is printed after the whole part. -/
def suffix (size : DockerSize) : List Char :=
  (if size.fraction = [] then
      []
    else
      '.' :: size.fraction.map fun digit => digit.val.digitChar) ++
    sizes.get size.unit

/-- The size as `docker stats` prints it. -/
def text (size : DockerSize) : List Char :=
  Nat.toDigits 10 size.whole ++ size.suffix

/-- The part after the point. -/
def fractionValue (size : DockerSize) : Rat :=
  (Nat.ofDigits 10 (size.fraction.reverse.map Fin.val) : Nat) / 10 ^ size.fraction.length

/-- The decimal times the power of 1024. -/
def bytes (size : DockerSize) : Rat :=
  (size.whole + size.fractionValue) * 1024 ^ size.unit.val

/-- The size has no fraction, or none that makes up a byte. -/
def IsWhole (size : DockerSize) : Prop :=
  size.fraction = [] ∨ size.unit.val = 0 ∨ size.bytes < 1

variable (size : DockerSize)

theorem fractionValue_nonneg : 0 ≤ size.fractionValue := by
  unfold fractionValue
  positivity

theorem fractionValue_lt_one : size.fractionValue < 1 := by
  have areDigits : ∀ digit ∈ size.fraction.reverse.map Fin.val, digit < 10 := by
    intro digit member
    obtain ⟨found, _, rfl⟩ := List.mem_map.mp member
    exact found.isLt
  have below :
      Nat.ofDigits 10 (size.fraction.reverse.map Fin.val) < 10 ^ size.fraction.length := by
    simpa using Nat.ofDigits_lt_base_pow_length (by decide) areDigits
  rw [fractionValue, div_lt_one (by positivity)]
  exact_mod_cast below

theorem fractionValue_eq_zero
    (noFraction : size.fraction = []) :
    size.fractionValue = 0 := by
  simp [fractionValue, noFraction]

theorem bytes_nonneg : 0 ≤ size.bytes :=
  mul_nonneg (add_nonneg (Nat.cast_nonneg _) size.fractionValue_nonneg) (by positivity)

theorem takeWhile_suffix : size.suffix.takeWhile Char.isDigit = [] := by
  have letters :
      ∀ unit : Fin sizes.length, (sizes.get unit).takeWhile Char.isDigit = [] := by
    decide
  unfold suffix
  split
  · exact letters size.unit
  · rfl

/-- A unit is found where it stands in the list. -/
theorem findIdx_unit :
    ∀ unit : Fin sizes.length,
      (sizes.get unit = ['B'] → unit.val = 0) ∧
        (sizes.findIdx? fun el => el == sizes.get unit) = some unit.val := by
  decide

theorem findIdx_fraction
    (rest : List Char) :
    (sizes.findIdx? fun el => el == '.' :: rest) = none := by
  simp [sizes]

variable {size}

/-- A size without a fraction is converted, of any other the whole part is left. -/
theorem dockerSizeToBytes_text :
    dockerSizeToBytes size.text =
      .finite
        (if size.fraction = [] then
          size.whole * 1024 ^ size.unit.val
        else
          size.whole : Nat) := by
  have parsed : JsNumber.parseInt size.text = .finite size.whole := by
    rw [text, JsNumber.parseInt_toDigits_append size.takeWhile_suffix]
  have rest : size.text.drop (Nat.toDigits 10 size.whole).length = size.suffix := by
    rw [text, List.drop_left]
  simp only [dockerSizeToBytes, parsed, JsNumber.printWhole_natCast, rest]
  by_cases noFraction : size.fraction = []
  · obtain ⟨isZero, found⟩ := findIdx_unit size.unit
    simp only [suffix, noFraction, if_true, List.nil_append, found]
    split
    · rename_i isB
      simp [isZero isB]
    · simp [JsNumber.scale]
  · simp only [suffix, noFraction, if_false, List.cons_append, findIdx_fraction]
    simp

theorem decimal_le_bytes : size.whole + size.fractionValue ≤ size.bytes :=
  le_mul_of_one_le_right (add_nonneg (Nat.cast_nonneg _) size.fractionValue_nonneg)
    (one_le_pow₀ (by norm_num))

/-- What a whole size converts to is its number of bytes, rounded down. -/
theorem dockerSizeToBytes_of_isWhole
    (isWhole : size.IsWhole) :
    dockerSizeToBytes size.text = .finite ⌊size.bytes⌋₊ := by
  have nonneg := size.fractionValue_nonneg
  have below := size.fractionValue_lt_one
  rw [dockerSizeToBytes_text]
  congr 2
  by_cases noFraction : size.fraction = []
  · have whole : size.bytes = (size.whole * 1024 ^ size.unit.val : Nat) := by
      simp [bytes, size.fractionValue_eq_zero noFraction]
    rw [if_pos noFraction, whole, Nat.floor_natCast]
  · rw [if_neg noFraction, eq_comm, Nat.floor_eq_iff size.bytes_nonneg]
    rcases isWhole with none | isByte | small
    · exact absurd none noFraction
    · simp only [bytes, isByte, pow_zero, mul_one]
      exact ⟨by linarith, by linarith⟩
    · have least := size.decimal_le_bytes
      have whole : (0 : Rat) ≤ size.whole := Nat.cast_nonneg _
      exact ⟨by linarith, by linarith⟩

/-- A number that is rounded one way or the other. -/
def Rounds (number : JsNumber) (exact : Rat) : Prop :=
  ∃ rounded : Nat, number = .finite rounded ∧ |rounded - exact| < 1

theorem rounds_iff_isWhole :
    Rounds (dockerSizeToBytes size.text) size.bytes ↔ size.IsWhole := by
  constructor
  · rintro ⟨rounded, converted, near⟩
    rw [dockerSizeToBytes_text] at converted
    have same := JsNumber.finite.inj converted
    refine or_iff_not_imp_left.mpr fun noWhole => or_iff_not_imp_left.mpr fun notByte => ?_
    rw [if_neg noWhole] at same
    rw [← same] at near
    have factor : (1024 : Rat) ≤ 1024 ^ size.unit.val :=
      le_self_pow₀ (by norm_num) notByte
    have decimal : (size.whole : Rat) ≤ size.whole + size.fractionValue := by
      linarith [size.fractionValue_nonneg]
    have scaled :
        (size.whole + size.fractionValue) * 1024 ≤ size.bytes :=
      mul_le_mul_of_nonneg_left factor (le_trans (Nat.cast_nonneg _) decimal)
    have upper := (abs_lt.mp near).1
    have noneWhole : size.whole = 0 := by
      have small : (size.whole : Rat) < 1 := by linarith
      exact Nat.lt_one_iff.mp (by exact_mod_cast small)
    rw [noneWhole] at upper
    push_cast at upper
    linarith
  · intro isWhole
    refine ⟨⌊size.bytes⌋₊, dockerSizeToBytes_of_isWhole isWhole, ?_⟩
    rw [abs_sub_comm, abs_of_nonneg (sub_nonneg.mpr (Nat.floor_le size.bytes_nonneg))]
    linarith [Nat.lt_floor_add_one size.bytes]

theorem noSlash_text : '/' ∉ size.text := by
  have letters : ∀ unit : Fin sizes.length, '/' ∉ sizes.get unit := by decide
  have digits : ∀ digit : Fin 10, digit.val.digitChar ≠ '/' := by decide
  intro member
  rcases List.mem_append.mp member with inWhole | inSuffix
  · exact absurd (JsNumber.isDigit_of_mem_toDigits '/' inWhole) (by decide)
  · rcases List.mem_append.mp inSuffix with inFraction | inUnit
    · split at inFraction
      · cases inFraction
      · rcases List.mem_cons.mp inFraction with isPoint | inDigits
        · cases isPoint
        · obtain ⟨digit, _, isSlash⟩ := List.mem_map.mp inDigits
          exact digits digit isSlash
    · exact letters size.unit inUnit

/-- The size is converted, and so it is in a row. -/
def Converts (size : DockerSize) : Prop :=
  Rounds (dockerSizeToBytes size.text) size.bytes ∧
    ∀ pids limit cpu timestamp,
      ∃ entry,
        formatRawMetric (statsRow pids size.text limit cpu) timestamp = .ok entry ∧
          Rounds entry.ram size.bytes

/--
A size is converted to its number of bytes exactly if it is whole, and among
whole sizes a larger one never gives fewer bytes.
-/
theorem converts_iff_isWhole
    (size : DockerSize) :
    (size.Converts ↔ size.IsWhole) ∧
      ∀ larger : DockerSize,
        size.IsWhole →
        larger.IsWhole →
        size.bytes ≤ larger.bytes →
        (dockerSizeToBytes larger.text).less (dockerSizeToBytes size.text) = false := by
  refine ⟨⟨fun converts => rounds_iff_isWhole.mp converts.1, fun isWhole => ?_⟩, ?_⟩
  · have rounds := rounds_iff_isWhole.mpr isWhole
    refine ⟨rounds, fun pids limit cpu timestamp => ?_⟩
    refine ⟨_, formatRawMetric_statsRow noSlash_text pids limit cpu timestamp, ?_⟩
    rw [dockerSizeToBytes_text, JsNumber.toFixed_natCast, ← dockerSizeToBytes_text]
    exact rounds
  · intro larger isWhole largerIsWhole ordered
    have floors := Nat.floor_mono ordered
    rw [dockerSizeToBytes_of_isWhole isWhole, dockerSizeToBytes_of_isWhole largerIsWhole]
    simpa [JsNumber.less] using floors

/-- `512MiB` -/
def halfGibibyte : DockerSize where
  whole := 512
  unit := ⟨2, by decide⟩
  fourDigits := by decide

/-- `1GiB` -/
def gibibyte : DockerSize where
  whole := 1
  unit := ⟨3, by decide⟩
  fourDigits := by decide

theorem converts_iff_isWhole_gibibyte :
    halfGibibyte.Converts ∧
      (dockerSizeToBytes gibibyte.text).less (dockerSizeToBytes halfGibibyte.text) = false := by
  have ordered : halfGibibyte.bytes ≤ gibibyte.bytes := by
    norm_num [bytes, fractionValue, halfGibibyte, gibibyte]
  exact ⟨(converts_iff_isWhole halfGibibyte).1.mpr (.inl rfl),
    (converts_iff_isWhole halfGibibyte).2 gibibyte (.inl rfl) (.inl rfl) ordered⟩

/-- `1.5GiB` -/
def gibibytes : DockerSize where
  whole := 1
  fraction := [5]
  unit := ⟨3, by decide⟩
  fourDigits := by decide

/-- One and a half gibibytes are taken for one byte, and half of one is not. -/
theorem fraction_notConverted :
    gibibytes.text = "1.5GiB".toList ∧
      dockerSizeToBytes gibibytes.text = .finite 1 ∧
      gibibytes.bytes = 1610612736 ∧
      ¬gibibytes.Converts ∧
      halfGibibyte.bytes < gibibytes.bytes ∧
      dockerSizeToBytes halfGibibyte.text = .finite 536870912 := by
  have large : gibibytes.bytes = 1610612736 := by
    norm_num [bytes, fractionValue, gibibytes]
  have smaller : halfGibibyte.bytes = 536870912 := by
    norm_num [bytes, fractionValue, halfGibibyte]
  refine ⟨rfl, ?_, large, fun converts => ?_, ?_, ?_⟩
  · norm_num [dockerSizeToBytes_text, gibibytes]
  · rcases rounds_iff_isWhole.mp converts.1 with none | isByte | small
    · cases none
    · cases isByte
    · rw [large] at small
      norm_num at small
  · rw [smaller, large]
    norm_num
  · norm_num [dockerSizeToBytes_text, halfGibibyte]

end DockerSize

end Prescott
