import Mathlib.Data.List.Basic

namespace Prescott

/-!
# Reading a text by lines

A line ends at a line feed, at a carriage return with or without a line feed,
and at the line and paragraph separators of Unicode.  What follows the last
end is a line of its own unless it is empty.
-/

/-- The line and the paragraph separator, U+2028 and U+2029. -/
def isSeparator (char : Char) : Bool :=
  char == '\u2028' || char == '\u2029'

/-- The characters that end a line. -/
def isLineEnd (char : Char) : Bool :=
  char == '\n' || char == '\r' || isSeparator char

/-- Go on with a started line; a line feed after a carriage return is skipped. -/
def linesFrom : List Char → Bool → List Char → List (List Char)
  | line, _, [] => if line.isEmpty then [] else [line]
  | line, afterReturn, char :: rest =>
      if afterReturn && char == '\n' then
        linesFrom line false rest
      else if isLineEnd char then
        line :: linesFrom [] (char == '\r') rest
      else
        linesFrom (line ++ [char]) false rest

/-- The lines of a text. -/
def readLines (text : List Char) : List (List Char) :=
  linesFrom [] false text

/-- No character of the text ends a line. -/
def OneLine (text : List Char) : Prop :=
  ∀ char ∈ text, isLineEnd char = false

instance : DecidablePred OneLine := fun text =>
  List.decidableBAll (fun char => isLineEnd char = false) text

theorem OneLine.cons
    {char : Char}
    {text : List Char}
    (goesOn : isLineEnd char = false)
    (oneLine : OneLine text) :
    OneLine (char :: text) :=
  List.forall_mem_cons.mpr ⟨goesOn, oneLine⟩

theorem OneLine.append
    {leading trailing : List Char}
    (leadingOneLine : OneLine leading)
    (trailingOneLine : OneLine trailing) :
    OneLine (leading ++ trailing) := by
  intro char member
  rcases List.mem_append.mp member with first | second
  · exact leadingOneLine char first
  · exact trailingOneLine char second

theorem linesFrom_append
    {text : List Char}
    (oneLine : OneLine text)
    (line : List Char)
    {lineEnd : Char}
    (ends : isLineEnd lineEnd = true)
    (rest : List Char) :
    linesFrom line false (text ++ lineEnd :: rest) =
      (line ++ text) :: linesFrom [] (lineEnd == '\r') rest := by
  induction text generalizing line with
  | nil =>
      simp [linesFrom, ends]
  | cons char others inductionHypothesis =>
      have goesOn := oneLine char (.head _)
      have later :=
        inductionHypothesis (fun other member => oneLine other (.tail _ member))
          (line ++ [char])
      simpa [linesFrom, goesOn] using later

/-- A text up to its first end of a line is its first line. -/
theorem readLines_append
    {text : List Char}
    (oneLine : OneLine text)
    {lineEnd : Char}
    (ends : isLineEnd lineEnd = true)
    (rest : List Char) :
    readLines (text ++ lineEnd :: rest) =
      text :: linesFrom [] (lineEnd == '\r') rest :=
  linesFrom_append oneLine [] ends rest

/-- Lines that are ended by line feeds are read one by one. -/
theorem readLines_flatMap
    {texts : List (List Char)}
    (oneLine : ∀ text ∈ texts, OneLine text)
    (rest : List Char) :
    readLines (texts.flatMap (· ++ ['\n']) ++ rest) =
      texts ++ readLines rest := by
  induction texts with
  | nil =>
      rfl
  | cons text others inductionHypothesis =>
      have later :=
        inductionHypothesis fun other member => oneLine other (.tail _ member)
      have first :=
        @readLines_append _ (oneLine text (.head _)) '\n' rfl
          (others.flatMap (· ++ ['\n']) ++ rest)
      rw [List.flatMap_cons, List.append_assoc, List.append_assoc,
        List.singleton_append, first]
      exact congrArg (text :: ·) later

end Prescott
