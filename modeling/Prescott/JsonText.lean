import Mathlib.Data.List.TakeWhile

namespace Prescott.Json

/-!
# JSON texts of flat objects

Objects whose members are strings, numbers and `null`: how they are written, how
a text is divided into tokens character by character, and how the tokens are
read back.  A string is a sequence of Unicode characters; an escape of a lone
surrogate denotes none and is refused.
-/

variable {Number : Type}

/-- The value of a member. -/
inductive Scalar (Number : Type) where
  | text (content : List Char)
  | number (value : Number)
  | null
  deriving Repr, DecidableEq

/-- A member: its key and its value. -/
abbrev Field (Number : Type) := List Char × Scalar Number

/-- The characters that numbers are made of. -/
def isNumberChar (char : Char) : Bool :=
  char.isDigit || ['+', '-', '.', 'e', 'E'].contains char

/-- How numbers are written and read back. -/
structure NumberFormat (Number : Type) where
  print : Number → List Char
  scan : List Char → Option Number
  print_ne_nil : ∀ value, print value ≠ []
  print_chars : ∀ value, ∀ char ∈ print value, isNumberChar char = true
  scan_print : ∀ value, scan (print value) = some value

/-- The escapes of two characters, with the letters that stand for them. -/
def shortEscapes : List (Char × Char) :=
  [('"', '"'), ('\\', '\\'), ('\x08', 'b'), ('\x0C', 'f'), ('\n', 'n'),
    ('\r', 'r'), ('\t', 't')]

/-- A digit of a code, in small letters. -/
def hexDigit (value : Nat) : Char :=
  Char.ofNat (if value < 10 then 0x30 + value else 0x57 + value)

/-- The value of a digit of a code, in letters of either case. -/
def hexValue (char : Char) : Option Nat :=
  if char.isDigit then
    some (char.toNat - 0x30)
  else if 'a' ≤ char ∧ char ≤ 'f' then
    some (char.toNat - 0x57)
  else if 'A' ≤ char ∧ char ≤ 'F' then
    some (char.toNat - 0x37)
  else
    none

/-- A character of a string as it is written. -/
def escape (char : Char) : List Char :=
  match shortEscapes.lookup char with
  | some letter => ['\\', letter]
  | none =>
      if char.toNat < 0x20 then
        ['\\', 'u', '0', '0', hexDigit (char.toNat / 16),
          hexDigit (char.toNat % 16)]
      else
        [char]

/-- The character that an escape of two characters denotes. -/
def unescape (letter : Char) : Option Char :=
  if letter = '/' then
    some '/'
  else
    (shortEscapes.find? fun pair => pair.2 == letter).map Prod.fst

/-- A string in quotes. -/
def quote (content : List Char) : List Char :=
  '"' :: (content.flatMap escape ++ ['"'])

section Stringify

variable (format : NumberFormat Number)

/-- A value as it is written. -/
def stringifyScalar : Scalar Number → List Char
  | .text content => quote content
  | .number value => format.print value
  | .null => "null".toList

/-- A member as it is written. -/
def stringifyField (field : Field Number) : List Char :=
  quote field.1 ++ ':' :: stringifyScalar format field.2

/-- The members up to the end of the object. -/
def stringifyFields : Field Number → List (Field Number) → List Char
  | field, [] => stringifyField format field ++ ['}']
  | field, next :: rest =>
      stringifyField format field ++ ',' :: stringifyFields next rest

/-- `JSON.stringify` of a flat object. -/
def stringify : List (Field Number) → List Char
  | [] => ['{', '}']
  | field :: rest => '{' :: stringifyFields format field rest

end Stringify

/-- A mark of punctuation or a value. -/
inductive Token (Number : Type) where
  | mark (char : Char)
  | scalar (value : Scalar Number)
  deriving Repr, DecidableEq

/-- Where the division into tokens stands. -/
inductive Lexer where
  | between
  | inNumber (digits : List Char)
  | inWord (letters : List Char)
  | inString (content : List Char)
  | escaped (content : List Char)
  /-- In an escape by code: the digits after the next one and the value so far. -/
  | inCode (content : List Char) (more value : Nat)
  deriving Repr, DecidableEq

/-- What a character starts between two tokens. -/
def begin (char : Char) : Option (List (Token Number) × Lexer) :=
  if char = '"' then
    some ([], .inString [])
  else if ['{', '}', ':', ','].contains char then
    some ([.mark char], .between)
  else if isNumberChar char then
    some ([], .inNumber [char])
  else if char.isLower then
    some ([], .inWord [char])
  else if [' ', '\n', '\r', '\t'].contains char then
    some ([], .between)
  else
    none

/-- The value that a word denotes. -/
def scanWord (letters : List Char) : Option (Scalar Number) :=
  if letters = "null".toList then some .null else none

/-- One character. -/
def step (format : NumberFormat Number) :
    Lexer → Char → Option (List (Token Number) × Lexer)
  | .between, char => begin char
  | .inNumber digits, char =>
      if isNumberChar char then
        some ([], .inNumber (digits ++ [char]))
      else do
        let value ← format.scan digits
        let (tokens, next) ← begin char
        return (.scalar (.number value) :: tokens, next)
  | .inWord letters, char =>
      if char.isLower then
        some ([], .inWord (letters ++ [char]))
      else do
        let value ← scanWord letters
        let (tokens, next) ← begin char
        return (.scalar value :: tokens, next)
  | .inString content, char =>
      if char = '"' then
        some ([.scalar (.text content)], .between)
      else if char = '\\' then
        some ([], .escaped content)
      else if char.toNat < 0x20 then
        none
      else
        some ([], .inString (content ++ [char]))
  | .escaped content, char =>
      if char = 'u' then
        some ([], .inCode content 3 0)
      else do
        let denoted ← unescape char
        return ([], .inString (content ++ [denoted]))
  | .inCode content more value, char => do
      let digit ← hexValue char
      let value := value * 16 + digit
      match more with
      | more + 1 => return ([], .inCode content more value)
      | 0 =>
          if value.isValidChar then
            return ([], .inString (content ++ [Char.ofNat value]))
          else
            none

/-- The characters of a text one after another. -/
def run (format : NumberFormat Number) :
    Lexer → List Char → Option (List (Token Number) × Lexer)
  | state, [] => some ([], state)
  | state, char :: rest => do
      let (tokens, next) ← step format state char
      let (later, last) ← run format next rest
      return (tokens ++ later, last)

/-- The token that the end of the text completes. -/
def finish (format : NumberFormat Number) : Lexer → Option (List (Token Number))
  | .between => some []
  | .inNumber digits => do
      let value ← format.scan digits
      return [.scalar (.number value)]
  | .inWord letters => do
      let value ← scanWord letters
      return [.scalar value]
  | _ => none

/-- The members up to the end of the object. -/
def parseFields : List (Token Number) → Option (List (Field Number))
  | [.scalar (.text key), .mark ':', .scalar value, .mark '}'] =>
      some [(key, value)]
  | .scalar (.text key) :: .mark ':' :: .scalar value :: .mark ',' :: rest => do
      let fields ← parseFields rest
      return (key, value) :: fields
  | _ => none

/-- An object is a pair of braces with members in between. -/
def parseObject : List (Token Number) → Option (List (Field Number))
  | [.mark '{', .mark '}'] => some []
  | .mark '{' :: rest => parseFields rest
  | _ => none

/-- `JSON.parse` of a flat object; `none` where it throws a `SyntaxError`. -/
def parse (format : NumberFormat Number) (text : List Char) :
    Option (List (Field Number)) := do
  let (tokens, last) ← run format .between text
  let final ← finish format last
  parseObject (tokens ++ final)

section Escapes

variable {format : NumberFormat Number}

/-- Reading a text in two parts. -/
theorem run_append
    {first middle last : Lexer}
    {leading trailing : List Char}
    {tokens later : List (Token Number)}
    (ran : run format first leading = some (tokens, middle))
    (ranOn : run format middle trailing = some (later, last)) :
    run format first (leading ++ trailing) = some (tokens ++ later, last) := by
  induction leading generalizing first tokens with
  | nil =>
      cases ran
      exact ranOn
  | cons char rest inductionHypothesis =>
      simp only [run, Option.bind_eq_bind, Option.bind_eq_some_iff,
        Option.pure_def, Option.some.injEq] at ran
      obtain ⟨⟨begun, next⟩, stepped, ⟨rested, reached⟩, continued, shape⟩ :=
        ran
      cases shape
      simp [run, stepped, inductionHypothesis continued]

theorem run_singleton
    {first last : Lexer}
    {char : Char}
    {tokens : List (Token Number)}
    (stepped : step format first char = some (tokens, last)) :
    run format first [char] = some (tokens, last) := by
  simp [run, stepped]

/-- The table of short escapes is read back. -/
theorem unescape_of_mem :
    ∀ pair ∈ shortEscapes,
      pair.2 ≠ 'u' ∧ unescape pair.2 = some pair.1 := by
  decide

/-- A digit of an escape by code is read back. -/
theorem hexValue_hexDigit :
    ∀ value < 16, hexValue (hexDigit value) = some value := by
  decide

theorem mem_of_lookup
    {char letter : Char}
    (found : shortEscapes.lookup char = some letter) :
    (char, letter) ∈ shortEscapes :=
  List.lookup_eq_some_iff.mp found |>.elim fun leading ⟨_, shape, _⟩ =>
    shape ▸ List.mem_append_right leading (List.mem_cons_self ..)

/-- A character without an escape is no quote and no backslash. -/
theorem ne_of_lookup_none
    {char : Char}
    (notFound : shortEscapes.lookup char = none) :
    char ≠ '"' ∧ char ≠ '\\' := by
  constructor
  · rintro rfl
    cases notFound
  · rintro rfl
    cases notFound

/-- A written character is read back inside a string. -/
theorem run_escape
    (content : List Char)
    (char : Char) :
    run format (.inString content) (escape char) =
      some ([], .inString (content ++ [char])) := by
  unfold escape
  split
  · rename_i letter found
    obtain ⟨notCode, denoted⟩ := unescape_of_mem _ (mem_of_lookup found)
    simp [run, step, notCode, denoted]
  · rename_i notFound
    obtain ⟨notQuote, notBackslash⟩ := ne_of_lookup_none notFound
    split
    · rename_i isControl
      have high := hexValue_hexDigit (char.toNat / 16) (by omega)
      have low := hexValue_hexDigit (char.toNat % 16) (by omega)
      have zero : hexValue '0' = some 0 := rfl
      have value : char.toNat / 16 * 16 + char.toNat % 16 = char.toNat := by
        omega
      have valid : char.toNat.isValidChar := char.valid
      simp [run, step, high, low, zero, value, valid]
    · rename_i printable
      simp [run, step, notQuote, notBackslash, printable]

theorem run_escapes
    (content leading : List Char) :
    run format (.inString leading) (content.flatMap escape) =
      some ([], .inString (leading ++ content)) := by
  induction content generalizing leading with
  | nil =>
      simp [run]
  | cons char rest inductionHypothesis =>
      have ran :=
        run_append (@run_escape _ format leading char)
          (inductionHypothesis (leading ++ [char]))
      simpa using ran

end Escapes

section RoundTrip

variable {format : NumberFormat Number}

theorem run_quote
    (content : List Char) :
    run format .between (quote content) =
      some ([.scalar (.text content)], .between) :=
  run_append (run_singleton (rfl : step format .between '"' = _))
    (run_append (run_escapes content [])
      (run_singleton
        (rfl : step format (.inString content) '"' = _)))

/-- A character of a number starts a number. -/
theorem begin_number
    {char : Char}
    (isNumber : isNumberChar char = true) :
    begin char = some (([] : List (Token Number)), .inNumber [char]) := by
  have notQuote : char ≠ '"' := by
    rintro rfl
    cases isNumber
  have noMark : ['{', '}', ':', ','].contains char = false := by
    by_contra isMark
    simp only [List.contains_cons, List.contains_nil, Bool.or_eq_true,
      Bool.not_eq_false, beq_iff_eq, Bool.false_eq_true, or_false] at isMark
    rcases isMark with rfl | rfl | rfl | rfl <;> cases isNumber
  rw [begin, if_neg notQuote, if_neg (by rw [noMark]; exact Bool.false_ne_true),
    if_pos isNumber]

theorem run_digits
    {digits : List Char}
    (areDigits : ∀ char ∈ digits, isNumberChar char = true)
    (leading : List Char) :
    run format (.inNumber leading) digits =
      some ([], .inNumber (leading ++ digits)) := by
  induction digits generalizing leading with
  | nil =>
      simp [run]
  | cons char rest inductionHypothesis =>
      have isDigit := areDigits char (.head _)
      have rested :=
        inductionHypothesis (fun other member => areDigits other (.tail _ member))
          (leading ++ [char])
      simp [run, step, isDigit, rested]

theorem run_number
    (value : Number) :
    run format .between (format.print value) =
      some ([], .inNumber (format.print value)) := by
  have areDigits := format.print_chars value
  obtain ⟨char, rest, shape⟩ :=
    List.exists_cons_of_ne_nil (format.print_ne_nil value)
  rw [shape] at areDigits ⊢
  have begun :
      step format .between char = some ([], .inNumber [char]) :=
    begin_number (areDigits char (.head _))
  exact run_append (run_singleton begun)
    (run_digits (fun other member => areDigits other (.tail _ member)) [char])

theorem run_null :
    run format .between "null".toList = some ([], .inWord "null".toList) :=
  rfl

/-- A member with the mark that follows it. -/
theorem run_field
    (field : Field Number)
    {mark : Char}
    (isMark : mark = ',' ∨ mark = '}') :
    run format .between (stringifyField format field ++ [mark]) =
      some ([.scalar (.text field.1), .mark ':', .scalar field.2, .mark mark],
        .between) := by
  have begun : begin mark = some (([.mark mark] : List (Token Number)), .between) := by
    rcases isMark with rfl | rfl <;> rfl
  obtain ⟨key, value⟩ := field
  have keyed :
      run format .between (quote key ++ [':']) =
        some ([.scalar (.text key), .mark ':'], .between) :=
    run_append (run_quote key)
      (run_singleton (rfl : step format .between ':' = _))
  have valued :
      run format .between (stringifyScalar format value ++ [mark]) =
        some ([.scalar value, .mark mark], .between) := by
    cases value with
    | text content =>
        exact run_append (run_quote content) (run_singleton begun)
    | number number =>
        have notNumber : isNumberChar mark = false := by
          rcases isMark with rfl | rfl <;> rfl
        refine run_append (run_number number) (run_singleton ?_)
        simp [step, notNumber, format.scan_print, begun]
    | null =>
        have notLower : mark.isLower = false := by
          rcases isMark with rfl | rfl <;> rfl
        refine run_append run_null (run_singleton ?_)
        simp [step, notLower, scanWord, begun]
  have ran := run_append keyed valued
  simpa [stringifyField] using ran

/-- The tokens of the members up to the end of the object. -/
def fieldTokens : Field Number → List (Field Number) → List (Token Number)
  | field, [] =>
      [.scalar (.text field.1), .mark ':', .scalar field.2, .mark '}']
  | field, next :: rest =>
      .scalar (.text field.1) :: .mark ':' :: .scalar field.2 :: .mark ',' ::
        fieldTokens next rest

theorem run_fields
    (field : Field Number)
    (rest : List (Field Number)) :
    run format .between (stringifyFields format field rest) =
      some (fieldTokens field rest, .between) := by
  induction rest generalizing field with
  | nil =>
      exact run_field field (.inr rfl)
  | cons next others inductionHypothesis =>
      have ran := run_append (run_field field (.inl rfl)) (inductionHypothesis next)
      simpa [stringifyFields, fieldTokens] using ran

theorem parseFields_fieldTokens
    (field : Field Number)
    (rest : List (Field Number)) :
    parseFields (fieldTokens field rest) = some (field :: rest) := by
  induction rest generalizing field with
  | nil =>
      rfl
  | cons next others inductionHypothesis =>
      simp [fieldTokens, parseFields, inductionHypothesis next]

/-- A written object is read back. -/
theorem parse_stringify
    (fields : List (Field Number)) :
    parse format (stringify format fields) = some fields := by
  cases fields with
  | nil =>
      rfl
  | cons field rest =>
      have ran :
          run format .between (stringify format (field :: rest)) =
            some (.mark '{' :: fieldTokens field rest, .between) :=
        run_append (run_singleton (rfl : step format .between '{' = _))
          (run_fields field rest)
      have parsed :
          parseObject (.mark '{' :: fieldTokens field rest) =
            some (field :: rest) := by
        rw [← parseFields_fieldTokens field rest]
        cases rest <;> rfl
      simp [parse, ran, finish, parsed]

/-- Members that are followed by another one. -/
def stringifyLeading (format : NumberFormat Number) (fields : List (Field Number)) :
    List Char :=
  fields.flatMap fun field => stringifyField format field ++ [',']

/-- An object from one of its members on. -/
theorem stringify_append
    (leading : List (Field Number))
    (field : Field Number)
    (trailing : List (Field Number)) :
    ∃ rest,
      stringify format (leading ++ field :: trailing) =
        '{' :: (stringifyLeading format leading ++
          (stringifyField format field ++ rest)) := by
  have shape (first : Field Number) (others : List (Field Number)) :
      stringifyFields format first (others ++ field :: trailing) =
        stringifyLeading format (first :: others) ++
          stringifyFields format field trailing := by
    induction others generalizing first with
    | nil =>
        simp [stringifyFields, stringifyLeading]
    | cons next others inductionHypothesis =>
        simp [stringifyFields, stringifyLeading, inductionHypothesis]
  have begins :
      ∃ rest,
        stringifyFields format field trailing =
          stringifyField format field ++ rest := by
    cases trailing with
    | nil => exact ⟨_, rfl⟩
    | cons next others => exact ⟨_, rfl⟩
  obtain ⟨rest, begins⟩ := begins
  refine ⟨rest, ?_⟩
  cases leading with
  | nil => exact congrArg ('{' :: ·) begins
  | cons first others => exact congrArg ('{' :: ·) ((shape first others).trans (by rw [begins]))

theorem run_leading
    (fields : List (Field Number)) :
    ∃ tokens,
      run format .between (stringifyLeading format fields) =
        some (tokens, .between) := by
  induction fields with
  | nil =>
      exact ⟨[], rfl⟩
  | cons field rest inductionHypothesis =>
      obtain ⟨tokens, ran⟩ := inductionHypothesis
      exact ⟨_, run_append (run_field field (.inl rfl)) ran⟩

/-- A text that ends inside a string is refused. -/
theorem parse_unterminated
    {text content : List Char}
    {tokens : List (Token Number)}
    (ran : run format .between text = some (tokens, .inString content)) :
    parse format text = none := by
  simp [parse, ran, finish]

end RoundTrip

section Decimal

/-- The number that digits denote. -/
def scanNat (digits : List Char) : Option Nat :=
  if digits.all Char.isDigit then
    some (Nat.ofDigitChars 10 digits 0)
  else
    none

theorem scanNat_toDigits
    (value : Nat) :
    scanNat (Nat.toDigits 10 value) = some value := by
  have areDigits : (Nat.toDigits 10 value).all Char.isDigit = true := by
    rw [List.all_eq_true]
    intro char member
    exact Nat.isDigit_of_mem_toDigits (by decide) (by decide) member
  rw [scanNat, if_pos areDigits,
    Nat.ofDigitChars_toDigits (by decide) (by decide)]

/-- Integers in decimal digits, as they are written below the 21st power of ten. -/
def decimalFormat : NumberFormat Int where
  print
    | .ofNat value => Nat.toDigits 10 value
    | .negSucc value => '-' :: Nat.toDigits 10 (value + 1)
  scan
    | '-' :: digits => (scanNat digits).map fun value => -value
    | digits => (scanNat digits).map fun value => value
  print_ne_nil value := by
    cases value with
    | ofNat value => exact Nat.toDigits_ne_nil
    | negSucc value => exact List.cons_ne_nil _ _
  print_chars value char member := by
    have digits
        {value : Nat}
        (member : char ∈ Nat.toDigits 10 value) :
        isNumberChar char = true := by
      rw [isNumberChar, Bool.or_eq_true]
      exact .inl (Nat.isDigit_of_mem_toDigits (by decide) (by decide) member)
    cases value with
    | ofNat value => exact digits member
    | negSucc value =>
        rcases List.mem_cons.mp member with rfl | later
        · rfl
        · exact digits later
  scan_print value := by
    cases value with
    | negSucc value =>
        simp only [scanNat_toDigits]
        rfl
    | ofNat value =>
        obtain ⟨char, rest, shape⟩ :=
          List.exists_cons_of_ne_nil (@Nat.toDigits_ne_nil value 10)
        have isDigit : char.isDigit = true :=
          Nat.isDigit_of_mem_toDigits (by decide) (by decide)
            (shape ▸ List.mem_cons_self ..)
        have scanned := scanNat_toDigits value
        simp only [shape] at scanned ⊢
        split
        · rename_i sign
          cases sign
          cases isDigit
        · rw [scanned]
          rfl

/-- The integers in a format of all numbers. -/
def NumberFormat.integers (format : NumberFormat Rat) : NumberFormat Int where
  print value := format.print value
  scan text := do
    let value ← format.scan text
    if value.den = 1 then some value.num else none
  print_ne_nil value := format.print_ne_nil value
  print_chars value := format.print_chars value
  scan_print value := by
    rw [format.scan_print value]
    rfl

/-- The text before the mark between a numerator and a denominator. -/
theorem decimalFormat_ne_mark
    (value : Int) :
    ∀ char ∈ decimalFormat.print value, (char != 'E') = true := by
  have digits
      {value : Nat}
      {char : Char}
      (member : char ∈ Nat.toDigits 10 value) :
      (char != 'E') = true := by
    have isDigit := Nat.isDigit_of_mem_toDigits (by decide) (by decide) member
    rw [bne_iff_ne]
    rintro rfl
    cases isDigit
  intro char member
  cases value with
  | ofNat value => exact digits member
  | negSucc value =>
      rcases List.mem_cons.mp member with rfl | later
      · rfl
      · exact digits later

/-- Integers in decimal digits, and the other numbers as fractions. -/
def fractionFormat : NumberFormat Rat where
  print value :=
    if value.den = 1 then
      decimalFormat.print value.num
    else
      decimalFormat.print value.num ++ 'E' :: Nat.toDigits 10 value.den
  scan text := do
    let num ← decimalFormat.scan (text.takeWhile (· != 'E'))
    match text.dropWhile (· != 'E') with
    | [] => return num
    | _ :: digits =>
        let den ← scanNat digits
        return mkRat num den
  print_ne_nil value := by
    split
    · exact decimalFormat.print_ne_nil _
    · exact List.append_ne_nil_of_right_ne_nil _ (List.cons_ne_nil _ _)
  print_chars value char member := by
    split at member
    · exact decimalFormat.print_chars _ char member
    · rcases List.mem_append.mp member with isNum | isDen
      · exact decimalFormat.print_chars _ char isNum
      · rcases List.mem_cons.mp isDen with rfl | isDigit
        · rfl
        · rw [isNumberChar, Bool.or_eq_true]
          exact .inl (Nat.isDigit_of_mem_toDigits (by decide) (by decide) isDigit)
  scan_print value := by
    have noMark := decimalFormat_ne_mark value.num
    split
    · rename_i isInteger
      rw [List.takeWhile_eq_self_iff.mpr noMark, List.dropWhile_eq_nil_iff.mpr noMark,
        decimalFormat.scan_print]
      exact congrArg some (Rat.ext rfl isInteger.symm)
    · rw [List.takeWhile_append_of_pos noMark, List.dropWhile_append_of_pos noMark]
      simp [decimalFormat.scan_print, scanNat_toDigits, Rat.mkRat_self]

end Decimal

end Prescott.Json
