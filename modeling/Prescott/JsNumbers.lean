import Mathlib.Algebra.Field.Rat
import Mathlib.Algebra.Order.Ring.Abs
import Mathlib.Data.Rat.Floor
import Mathlib.Data.List.TakeWhile
import Mathlib.Order.MinMax
import Mathlib.Tactic.Common
import Mathlib.Tactic.FieldSimp
import Mathlib.Tactic.Linarith
import Mathlib.Tactic.Positivity

namespace Prescott

/-!
# Numbers of JavaScript

Numbers with their special values, computed without rounding, and the two ways
to read one from a text: the unary plus and `parseInt`.
-/

/-- A number; a finite one is an exact rational. -/
inductive JsNumber where
  | nan
  | negInfinity
  | finite (value : Rat)
  | infinity
  deriving DecidableEq

namespace JsNumber

/-- The sum; opposite infinities have none. -/
protected def add : JsNumber → JsNumber → JsNumber
  | .finite left, .finite right => .finite (left + right)
  | .nan, _ | _, .nan => .nan
  | .infinity, .negInfinity | .negInfinity, .infinity => .nan
  | .infinity, _ | _, .infinity => .infinity
  | .negInfinity, _ | _, .negInfinity => .negInfinity

/-- The unary minus. -/
protected def neg : JsNumber → JsNumber
  | .nan => .nan
  | .negInfinity => .infinity
  | .finite value => .finite (-value)
  | .infinity => .negInfinity

/-- `left - right`. -/
protected def sub (left right : JsNumber) : JsNumber :=
  left.add right.neg

/-- `value ** 2`. -/
def square : JsNumber → JsNumber
  | .nan => .nan
  | .finite value => .finite (value ^ 2)
  | .negInfinity | .infinity => .infinity

/-- The quotient by a positive number of values. -/
def divCount (dividend : JsNumber) (count : Nat) : JsNumber :=
  match dividend with
  | .finite value => .finite (value / count)
  | special => special

/-- The product with a positive factor. -/
def scale (factor : Nat) : JsNumber → JsNumber
  | .finite value => .finite (value * factor)
  | special => special

/--
The number that the text of `toFixed(digits)` stands for: the nearest one with
so many digits, the larger of two.  A text from `10 ^ 21` on keeps them all.
-/
def toFixed (digits : Nat) : JsNumber → JsNumber
  | .finite value =>
      if |value| < 10 ^ 21 then
        let nearest : Rat := ⌊|value| * 10 ^ digits + 1 / 2⌋ / 10 ^ digits
        .finite (if value < 0 then -nearest else nearest)
      else
        .finite value
  | special => special

/-- A whole number below `10 ^ 21` in a template literal. -/
def printWhole : JsNumber → List Char
  | .nan => "NaN".toList
  | .negInfinity => "-Infinity".toList
  | .finite value => value.num.repr.toList
  | .infinity => "Infinity".toList

/-- `Math.max` of two numbers. -/
protected def max : JsNumber → JsNumber → JsNumber
  | .finite left, .finite right => .finite (max left right)
  | .nan, _ | _, .nan => .nan
  | .infinity, _ | _, .infinity => .infinity
  | .negInfinity, other | other, .negInfinity => other

/-- `Math.min` of two numbers. -/
protected def min : JsNumber → JsNumber → JsNumber
  | .finite left, .finite right => .finite (min left right)
  | .nan, _ | _, .nan => .nan
  | .negInfinity, _ | _, .negInfinity => .negInfinity
  | .infinity, other | other, .infinity => other

/-- `left < right`; comparing with `NaN` is false. -/
def less : JsNumber → JsNumber → Bool
  | .finite left, .finite right => decide (left < right)
  | .nan, _ | _, .nan => false
  | .negInfinity, .negInfinity | .infinity, .infinity => false
  | .negInfinity, _ | _, .infinity => true
  | _, .negInfinity | .infinity, _ => false

/-- `WhiteSpace` and `LineTerminator`. -/
def isWhiteSpace (char : Char) : Bool :=
  let code := char.toNat
  (9 ≤ code && code ≤ 13) || code == 0x20 || code == 0xA0 ||
    code == 0x1680 || (0x2000 ≤ code && code ≤ 0x200A) || code == 0x2028 ||
    code == 0x2029 || code == 0x202F || code == 0x205F || code == 0x3000 ||
    code == 0xFEFF

/-- `text.trimStart()` -/
def trimStart (text : List Char) : List Char :=
  text.dropWhile isWhiteSpace

/-- `text.trim()` -/
def trim (text : List Char) : List Char :=
  (trimStart (trimStart text).reverse).reverse

/-- The value of a digit, letters included. -/
def digitOf (char : Char) : Option Nat :=
  let code := char.toNat
  if 48 ≤ code ∧ code ≤ 57 then
    some (code - 48)
  else if 65 ≤ code ∧ code ≤ 90 then
    some (code - 55)
  else if 97 ≤ code ∧ code ≤ 122 then
    some (code - 87)
  else
    none

/-- The value of digits in a radix. -/
def naturalOf (radix : Nat) (digits : List Char) : Option Nat :=
  digits.foldl
    (fun value char => do
      let value ← value
      let digit ← digitOf char
      if digit < radix then some (value * radix + digit) else none)
    (some 0)

/-- A sign, and what comes after it. -/
def splitSign : List Char → Int × List Char
  | '-' :: rest => (-1, rest)
  | '+' :: rest => (1, rest)
  | text => (1, text)

/-- An unsigned decimal literal: digits, a fraction and an exponent. -/
def decimalOf (text : List Char) : Option Rat :=
  let (mantissa, exponentPart) :=
    text.span fun char => char != 'e' && char != 'E'
  let (whole, fractionPart) := mantissa.span fun char => char != '.'
  let fraction := fractionPart.drop 1
  let exponent :=
    match exponentPart with
    | [] => some 0
    | _ :: rest =>
        let (sign, digits) := splitSign rest
        if digits.isEmpty then none else (naturalOf 10 digits).map (sign * ·)
  match naturalOf 10 (whole ++ fraction), exponent with
  | some digits, some exponent =>
      if (whole ++ fraction).isEmpty then
        none
      else
        some ((digits : Rat) * 10 ^ (exponent - fraction.length))
  | _, _ => none

/-- The unary plus on a text. -/
def ofText (text : String) : JsNumber :=
  let natural (radix : Nat) (digits : List Char) : JsNumber :=
    match naturalOf radix digits with
    | some value => if digits.isEmpty then .nan else .finite value
    | none => .nan
  match trim text.toList with
  | [] => .finite 0
  | '0' :: 'x' :: digits | '0' :: 'X' :: digits => natural 16 digits
  | '0' :: 'o' :: digits | '0' :: 'O' :: digits => natural 8 digits
  | '0' :: 'b' :: digits | '0' :: 'B' :: digits => natural 2 digits
  | trimmed =>
      let (sign, unsigned) := splitSign trimmed
      if unsigned = "Infinity".toList then
        if sign < 0 then .negInfinity else .infinity
      else
        match decimalOf unsigned with
        | some value => .finite (sign * value)
        | none => .nan

/-- `parseInt(text, 10)`: the digits that the text begins with. -/
def parseInt (text : List Char) : JsNumber :=
  let (sign, unsigned) := splitSign (trimStart text)
  let digits := unsigned.takeWhile Char.isDigit
  match naturalOf 10 digits with
  | some value => if digits.isEmpty then .nan else .finite (sign * value)
  | none => .nan

example : ofText "-12.50" = .finite (-25 / 2) := by decide +kernel

example : parseInt "137\n".toList = .finite 137 := by decide +kernel

private theorem bounds_of_isDigit
    {char : Char}
    (isDigit : char.isDigit = true) :
    48 ≤ char.toNat ∧ char.toNat ≤ 57 := by
  simpa [Char.isDigit, UInt32.le_iff_toNat_le] using isDigit

theorem digitOf_of_isDigit
    {char : Char}
    (isDigit : char.isDigit = true) :
    digitOf char = some (char.toNat - 48) :=
  if_pos (bounds_of_isDigit isDigit)

theorem naturalOf_digits
    {digits : List Char}
    (areDigits : ∀ char ∈ digits, char.isDigit = true) :
    naturalOf 10 digits = some (Nat.ofDigitChars 10 digits 0) := by
  unfold naturalOf Nat.ofDigitChars
  generalize 0 = value
  induction digits generalizing value with
  | nil => rfl
  | cons char rest inductionHypothesis =>
      have isDigit := areDigits char List.mem_cons_self
      have small : char.toNat - 48 < 10 := by
        have := bounds_of_isDigit isDigit
        omega
      have restRead := inductionHypothesis
        (fun other member => areDigits other (List.mem_cons_of_mem char member))
        (value * 10 + (char.toNat - 48))
      simpa [digitOf_of_isDigit isDigit, small, Nat.mul_comm 10] using restRead

theorem trimStart_of_digit
    {char : Char}
    (rest : List Char)
    (isDigit : char.isDigit = true) :
    trimStart (char :: rest) = char :: rest := by
  have bounds := bounds_of_isDigit isDigit
  refine List.dropWhile_cons_of_neg ?_
  simp [isWhiteSpace]
  omega

theorem splitSign_of_digit
    {char : Char}
    (rest : List Char)
    (isDigit : char.isDigit = true) :
    splitSign (char :: rest) = (1, char :: rest) := by
  unfold splitSign
  split
  · rename_i shape
    cases shape
    exact absurd isDigit (by decide)
  · rename_i shape
    cases shape
    exact absurd isDigit (by decide)
  · rfl

section Digits

variable {natural : Nat}
variable {rest : List Char}

theorem isDigit_of_mem_toDigits :
    ∀ char ∈ Nat.toDigits 10 natural, char.isDigit = true :=
  fun _ member => Nat.isDigit_of_mem_toDigits (by decide) (by decide) member

/-- A number that is printed with a leading zero is zero. -/
theorem eq_zero_of_toDigits
    (leading : Nat.toDigits 10 natural = '0' :: rest) :
    natural = 0 := by
  induction natural using Nat.strongRecOn generalizing rest with
  | ind natural inductionHypothesis =>
      by_cases isDigit : natural < 10
      · rw [Nat.toDigits_of_lt_base isDigit] at leading
        have onlyZero : ∀ digit : Fin 10, digit.val.digitChar = '0' → digit = 0 := by
          decide
        exact congrArg Fin.val (onlyZero ⟨natural, isDigit⟩ (List.cons.inj leading).1)
      · rw [Nat.toDigits_of_base_le (by decide) (Nat.not_lt.mp isDigit)] at leading
        obtain ⟨first, others, digits⟩ :=
          List.exists_cons_of_ne_nil (@Nat.toDigits_ne_nil (natural / 10) 10)
        rw [digits, List.cons_append] at leading
        obtain ⟨rfl, -⟩ := List.cons.inj leading
        have isZero := inductionHypothesis (natural / 10) (by omega) digits
        omega

/-- The digits of a number end where the text goes on with something else. -/
theorem takeWhile_toDigits
    (stops : rest.takeWhile Char.isDigit = []) :
    (Nat.toDigits 10 natural ++ rest).takeWhile Char.isDigit =
      Nat.toDigits 10 natural := by
  rw [List.takeWhile_append_of_pos isDigit_of_mem_toDigits, stops, List.append_nil]

theorem naturalOf_toDigits : naturalOf 10 (Nat.toDigits 10 natural) = some natural := by
  rw [naturalOf_digits isDigit_of_mem_toDigits, Nat.ofDigitChars_ten_toDigits]

/-- A text is read as the number that it begins with. -/
theorem parseInt_toDigits_append
    (stops : rest.takeWhile Char.isDigit = []) :
    parseInt (Nat.toDigits 10 natural ++ rest) = .finite natural := by
  have digits := @takeWhile_toDigits natural rest stops
  obtain ⟨first, more, shape⟩ :=
    List.exists_cons_of_ne_nil (@Nat.toDigits_ne_nil natural 10)
  have isDigit : first.isDigit = true :=
    isDigit_of_mem_toDigits first (shape ▸ List.mem_cons_self)
  have unsigned :
      splitSign (trimStart (Nat.toDigits 10 natural ++ rest)) =
        (1, Nat.toDigits 10 natural ++ rest) := by
    rw [shape, List.cons_append, trimStart_of_digit _ isDigit, splitSign_of_digit _ isDigit]
  simp [parseInt, unsigned, digits, naturalOf_toDigits]

theorem printWhole_natCast : (finite natural).printWhole = Nat.toDigits 10 natural := by
  have whole : (natural : Rat).num.repr = natural.repr := by
    rw [Rat.num_natCast]
    rfl
  exact (congrArg String.toList whole).trans Nat.toList_repr

/-- A whole number has no digits to round. -/
theorem toFixed_natCast
    (digits : Nat) :
    (finite natural).toFixed digits = .finite natural := by
  have notNegative : ¬(natural : Rat) < 0 := not_lt.mpr (Nat.cast_nonneg _)
  have nearest :
      ⌊(natural : Rat) * 10 ^ digits + 1 / 2⌋ = ((natural * 10 ^ digits : Nat) : Int) := by
    rw [Int.floor_eq_iff]
    push_cast
    constructor <;> linarith
  have power : (10 : Rat) ^ digits ≠ 0 := by positivity
  simp only [toFixed, abs_of_nonneg (@Nat.cast_nonneg Rat _ _ _ natural), nearest,
    if_neg notNegative]
  split
  · congr 1
    push_cast
    field_simp
  · rfl

end Digits

/-- A printed integer is read back. -/
theorem parseInt_repr
    (value : Int) :
    parseInt value.repr.toList = .finite value := by
  cases value with
  | ofNat natural =>
      have read : parseInt (Nat.toDigits 10 natural ++ []) = .finite natural :=
        parseInt_toDigits_append rfl
      simpa [Int.repr, Nat.toList_repr] using read
  | negSucc natural =>
      have trimmed (rest : List Char) : trimStart ('-' :: rest) = '-' :: rest :=
        List.dropWhile_cons_of_neg (by decide)
      have digits :
          (Nat.toDigits 10 (natural + 1)).takeWhile Char.isDigit =
            Nat.toDigits 10 (natural + 1) :=
        List.takeWhile_eq_self_iff.mpr isDigit_of_mem_toDigits
      simp [Int.repr, parseInt, Nat.toList_repr, trimmed, splitSign, digits,
        naturalOf_toDigits, Int.negSucc_eq]

end JsNumber

end Prescott
