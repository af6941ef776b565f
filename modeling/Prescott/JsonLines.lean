import Prescott.JsonText
import Prescott.LineReading

namespace Prescott.Json

/-!
# Lines of flat objects

Records are written as flat objects, each on a line of its own.  A reader knows
more ends of a line than the writer: JSON texts carry the line and the paragraph
separator as they are, so a string with one of them cuts its line, and what
stands before the cut is no JSON text.
-/

variable {Number : Type}

/-- No character of the text is a line or paragraph separator. -/
def Unseparated (text : List Char) : Prop :=
  ∀ char ∈ text, isSeparator char = false

instance : DecidablePred Unseparated := fun text =>
  List.decidableBAll (fun char => isSeparator char = false) text

/-- The strings of a member: its key, and its value if that is one. -/
def Field.texts (field : Field Number) : List (List Char) :=
  match field.2 with
  | .text content => [field.1, content]
  | _ => [field.1]

/-- No string of an object has a separator. -/
def UnseparatedFields (fields : List (Field Number)) : Prop :=
  ∀ field ∈ fields, ∀ text ∈ Field.texts field, Unseparated text

instance : DecidablePred (@UnseparatedFields Number) := fun fields =>
  List.decidableBAll (fun field => ∀ text ∈ Field.texts field, Unseparated text) fields

section OneLine

variable {format : NumberFormat Number}

/-- Escaping leaves no end of a line but the separators. -/
theorem oneLine_escape
    {char : Char}
    (noSeparator : isSeparator char = false) :
    OneLine (escape char) := by
  have letters :
      ∀ pair ∈ shortEscapes, isLineEnd pair.2 = false := by
    decide
  have digits :
      ∀ value < 16, isLineEnd (hexDigit value) = false := by
    decide
  unfold escape
  split
  · rename_i letter found
    intro other member
    rcases List.mem_cons.mp member with rfl | member
    · rfl
    · rw [List.mem_singleton.mp member]
      exact letters _ (mem_of_lookup found)
  · rename_i notFound
    split
    · rename_i isControl
      intro other member
      simp only [List.mem_cons, List.not_mem_nil, or_false] at member
      rcases member with rfl | rfl | rfl | rfl | rfl | rfl
      · rfl
      · rfl
      · rfl
      · rfl
      · exact digits _ (by omega)
      · exact digits _ (by omega)
    · intro other member
      rw [List.mem_singleton.mp member, isLineEnd, noSeparator,
        Bool.or_false, Bool.or_eq_false_iff, beq_eq_false_iff_ne,
        beq_eq_false_iff_ne]
      constructor
      · rintro rfl
        cases notFound
      · rintro rfl
        cases notFound

theorem oneLine_escapes
    {content : List Char}
    (unseparated : Unseparated content) :
    OneLine (content.flatMap escape) := by
  intro char member
  obtain ⟨source, sourceMember, written⟩ := List.mem_flatMap.mp member
  exact oneLine_escape (unseparated source sourceMember) char written

theorem oneLine_quote
    {content : List Char}
    (unseparated : Unseparated content) :
    OneLine (quote content) :=
  .cons rfl (.append (oneLine_escapes unseparated) (by decide))

theorem oneLine_number
    (value : Number) :
    OneLine (format.print value) := by
  intro char member
  have isNumber := format.print_chars value char member
  by_contra ends
  simp only [isLineEnd, isSeparator, Bool.not_eq_false, Bool.or_eq_true,
    beq_iff_eq] at ends
  rcases ends with (rfl | rfl) | (rfl | rfl) <;> cases isNumber

/-- A member without a separator is written on one line. -/
theorem oneLine_stringifyField
    {field : Field Number}
    (unseparated : ∀ text ∈ Field.texts field, Unseparated text) :
    OneLine (stringifyField format field) := by
  obtain ⟨key, value⟩ := field
  cases value with
  | text content =>
      exact .append (oneLine_quote (unseparated key (.head _)))
        (.cons rfl (oneLine_quote (unseparated content (.tail _ (.head _)))))
  | number value =>
      exact .append (oneLine_quote (unseparated key (.head _)))
        (.cons rfl (oneLine_number value))
  | null =>
      exact .append (oneLine_quote (unseparated key (.head _)))
        (.cons rfl (by decide : OneLine "null".toList))

theorem oneLine_stringifyLeading
    {fields : List (Field Number)}
    (unseparated : UnseparatedFields fields) :
    OneLine (stringifyLeading format fields) := by
  intro char member
  obtain ⟨field, listed, written⟩ := List.mem_flatMap.mp member
  exact (oneLine_stringifyField (unseparated field listed)).append (by decide) char written

theorem oneLine_stringifyFields
    {field : Field Number}
    {rest : List (Field Number)}
    (unseparated : UnseparatedFields (field :: rest)) :
    OneLine (stringifyFields format field rest) := by
  induction rest generalizing field with
  | nil =>
      exact .append (oneLine_stringifyField (unseparated field (.head _))) (by decide)
  | cons next others inductionHypothesis =>
      exact .append (oneLine_stringifyField (unseparated field (.head _)))
        (.cons rfl (inductionHypothesis fun other listed => unseparated other (.tail _ listed)))

/-- An object without a separator is written on one line. -/
theorem oneLine_stringify
    {fields : List (Field Number)}
    (unseparated : UnseparatedFields fields) :
    OneLine (stringify format fields) := by
  cases fields with
  | nil => exact .cons rfl (by decide)
  | cons field rest => exact .cons rfl (oneLine_stringifyFields unseparated)

end OneLine

/-- The first of the elements without a property. -/
theorem exists_first_not
    {α : Type}
    {property : α → Prop}
    {elements : List α}
    (failed : ¬ ∀ element ∈ elements, property element) :
    ∃ before element after,
      elements = before ++ element :: after ∧
        (∀ earlier ∈ before, property earlier) ∧ ¬ property element := by
  classical
  push Not at failed
  obtain ⟨failing, listed, fails⟩ := failed
  have found : (elements.find? fun element => decide (¬ property element)).isSome := by
    rw [List.find?_isSome]
    exact ⟨failing, listed, decide_eq_true fails⟩
  obtain ⟨element, isFirst⟩ := Option.isSome_iff_exists.mp found
  obtain ⟨elementFails, before, after, shape, holds⟩ :=
    List.find?_eq_some_iff_append.mp isFirst
  exact ⟨before, element, after, shape,
    fun earlier member => by simpa using holds earlier member,
    of_decide_eq_true elementFails⟩

section Cut

variable {format : NumberFormat Number}

/-- A separator is written as it is. -/
theorem escape_separator
    {separator : Char}
    (isSeparator : isSeparator separator = true) :
    escape separator = [separator] := by
  simp only [Prescott.isSeparator, Bool.or_eq_true, beq_iff_eq] at isSeparator
  rcases isSeparator with rfl | rfl <;> rfl

/-- A quoted text is cut inside the quotes. -/
theorem quote_of_separator
    {content : List Char}
    (separated : ¬ Unseparated content) :
    ∃ before separator rest,
      Unseparated before ∧ isLineEnd separator = true ∧
        quote content = ('"' :: before.flatMap escape) ++ separator :: rest := by
  obtain ⟨before, separator, after, rfl, plain, notPlain⟩ := exists_first_not separated
  have isSeparator : isSeparator separator = true := Bool.not_eq_false _ ▸ notPlain
  refine ⟨before, separator, after.flatMap escape ++ ['"'], plain, ?_, ?_⟩
  · rw [isLineEnd, isSeparator, Bool.or_true]
  · simp [quote, escape_separator isSeparator]

theorem run_openQuote
    (content : List Char) :
    run format .between ('"' :: content.flatMap escape) =
      some ([], .inString content) :=
  run_append (run_singleton (rfl : step format .between '"' = _))
    (run_escapes content [])

/-- A member with a separator is cut inside its key or inside its value. -/
theorem stringifyField_of_separator
    {field : Field Number}
    (separated : ¬ ∀ text ∈ Field.texts field, Unseparated text) :
    ∃ before separator rest tokens content,
      OneLine before ∧ isLineEnd separator = true ∧
        stringifyField format field = before ++ separator :: rest ∧
        run format .between before = some (tokens, .inString content) := by
  obtain ⟨key, value⟩ := field
  by_cases plainKey : Unseparated key
  · cases value with
    | text content =>
        have separatedValue : ¬ Unseparated content := by
          intro plain
          refine separated fun text listed => ?_
          rcases List.mem_cons.mp listed with rfl | listed
          · exact plainKey
          · exact List.mem_singleton.mp listed ▸ plain
        obtain ⟨before, separator, rest, plain, ends, shape⟩ :=
          quote_of_separator separatedValue
        have keyed :
            run format .between (quote key ++ [':']) =
              some ([.scalar (.text key), .mark ':'], .between) :=
          run_append (run_quote key)
            (run_singleton (rfl : step format .between ':' = _))
        refine ⟨(quote key ++ [':']) ++ '"' :: before.flatMap escape, separator, rest, _, _,
          ?_, ends, ?_, run_append keyed (run_openQuote before)⟩
        · exact .append (.append (oneLine_quote plainKey) (by decide))
            (.cons rfl (oneLine_escapes plain))
        · simp [stringifyField, stringifyScalar, shape]
    | number value =>
        exact absurd (List.forall_mem_singleton.mpr plainKey) separated
    | null =>
        exact absurd (List.forall_mem_singleton.mpr plainKey) separated
  · obtain ⟨before, separator, rest, plain, ends, shape⟩ := quote_of_separator plainKey
    refine ⟨'"' :: before.flatMap escape, separator,
      rest ++ ':' :: stringifyScalar format value, [], before,
      .cons rfl (oneLine_escapes plain), ends, ?_, run_openQuote before⟩
    simp [stringifyField, shape]

/-- An object with a separator is cut there, and what stands before cannot be parsed. -/
theorem stringify_of_separator
    {fields : List (Field Number)}
    (separated : ¬ UnseparatedFields fields) :
    ∃ leading separator rest,
      OneLine leading ∧ isLineEnd separator = true ∧
        stringify format fields = leading ++ separator :: rest ∧
        parse format leading = none := by
  obtain ⟨leading, field, trailing, rfl, plain, fieldSeparated⟩ :=
    exists_first_not separated
  obtain ⟨before, separator, rest, tokens, content, oneLine, ends, shape, ran⟩ :=
    @stringifyField_of_separator _ format field fieldSeparated
  obtain ⟨others, written⟩ := @stringify_append _ format leading field trailing
  obtain ⟨earlier, ranLeading⟩ := @run_leading _ format leading
  refine ⟨'{' :: (stringifyLeading format leading ++ before), separator, rest ++ others,
    .cons rfl (.append (oneLine_stringifyLeading plain) oneLine), ends, ?_, ?_⟩
  · rw [written, shape]
    simp
  · exact parse_unterminated
      (run_append (run_singleton (rfl : step format .between '{' = _))
        (run_append ranLeading ran))

end Cut

/-- How records are written as flat objects and read back. -/
structure RecordCodec (Record Number : Type) where
  fields : Record → List (Field Number)
  ofFields : List (Field Number) → Option Record
  ofFields_fields : ∀ record, ofFields (fields record) = some record

namespace RecordCodec

variable {Record : Type}

/-- The line of a record without its end. -/
def line
    (codec : RecordCodec Record Number)
    (format : NumberFormat Number)
    (record : Record) :
    List Char :=
  stringify format (codec.fields record)

/-- The record of a line; `none` where `JSON.parse` throws. -/
def ofLine
    (codec : RecordCodec Record Number)
    (format : NumberFormat Number)
    (line : List Char) :
    Option Record :=
  (parse format line).bind codec.ofFields

/-- The records, each on a line that is ended by a line feed. -/
def text
    (codec : RecordCodec Record Number)
    (format : NumberFormat Number)
    (records : List Record) :
    List Char :=
  records.flatMap fun record => codec.line format record ++ ['\n']

/-- A reader takes the line of the record for one line. -/
def IsReadable (codec : RecordCodec Record Number) (record : Record) : Prop :=
  UnseparatedFields (codec.fields record)

variable {codec : RecordCodec Record Number}

/-- A line is read back as its record. -/
@[simp] theorem ofLine_line
    (format : NumberFormat Number)
    (record : Record) :
    codec.ofLine format (codec.line format record) = some record := by
  rw [ofLine, line, parse_stringify]
  exact codec.ofFields_fields record

/-- Readable records stand on the lines of the text. -/
theorem readLines_text
    (format : NumberFormat Number)
    {records : List Record}
    (readable : ∀ record ∈ records, codec.IsReadable record)
    (rest : List Char) :
    readLines (codec.text format records ++ rest) =
      records.map (codec.line format) ++ readLines rest := by
  rw [← readLines_flatMap, List.flatMap_map]
  · rfl
  · intro line member
    obtain ⟨record, listed, rfl⟩ := List.mem_map.mp member
    exact oneLine_stringify (readable record listed)

/-- After readable records an unreadable one begins with a line that cannot be parsed. -/
theorem readLines_text_of_not_readable
    (format : NumberFormat Number)
    {leading : List Record}
    {record : Record}
    (readable : ∀ earlier ∈ leading, codec.IsReadable earlier)
    (notReadable : ¬ codec.IsReadable record)
    (trailing : List Record) :
    ∃ broken rest,
      codec.ofLine format broken = none ∧
        readLines (codec.text format (leading ++ record :: trailing)) =
          leading.map (codec.line format) ++ broken :: rest := by
  obtain ⟨broken, separator, rest, oneLine, ends, shape, cannotParse⟩ :=
    @stringify_of_separator _ format _ notReadable
  have written :
      codec.text format (leading ++ record :: trailing) =
        codec.text format leading ++
          (broken ++ separator :: (rest ++ '\n' :: codec.text format trailing)) := by
    simp [text, line, shape]
  refine ⟨broken,
    linesFrom [] (separator == '\r') (rest ++ '\n' :: codec.text format trailing), ?_, ?_⟩
  · rw [ofLine, cannotParse]
    rfl
  · rw [written, readLines_text format readable, readLines_append oneLine ends]

end RecordCodec

end Prescott.Json
