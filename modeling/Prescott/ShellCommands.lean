import Mathlib.Data.List.Basic

namespace Prescott

/-!
# Lists of shell commands

A line of simple commands joined by `&&` and `;` as a POSIX shell reads and
runs it.  Operators are recognised outside of quotes and substitutions; every
other operator, a comment and a here-document are refused.
-/

namespace Shell

/-- What a character stands in, besides the line itself. -/
inductive Quoting where
  | single
  | double
  | backquote
  /-- `${ ... }` -/
  | parameter
  /-- `$( ... )` or parentheses inside of one. -/
  | command
  deriving Repr, DecidableEq

/-- What the last character was, as far as the next one depends on it. -/
inductive Previous where
  | boundary
  /-- A backslash, and what was before it. -/
  | backslash (before : Previous)
  | dollar
  /-- `>`, which may go on as `>>`, `>&` or `>|`. -/
  | greater
  /-- `<`, which may go on as `<&` or `<>`. -/
  | less
  /-- A redirection that lacks its word. -/
  | redirection
  | other
  deriving Repr, DecidableEq

/-- A command may end here. -/
def Previous.isComplete : Previous → Bool
  | .boundary | .dollar | .other => true
  | .backslash _ | .greater | .less | .redirection => false

/-- A redirection lacks its word. -/
def Previous.redirects : Previous → Bool
  | .greater | .less | .redirection => true
  | _ => false

/-- What is open, innermost first, and the last character. -/
structure Lexer where
  contexts : List Quoting
  previous : Previous
  deriving Repr, DecidableEq

/-- The characters between two words. -/
def isBlank (char : Char) : Bool :=
  char == ' ' || char == '\t'

theorem blank_isBlank : ∀ char ∈ [' '], isBlank char = true := by
  simp [isBlank]

namespace Lexer

/-- Where a command begins. -/
def start : Lexer where
  contexts := []
  previous := .boundary

/-- Nothing is open, and no character is missing. -/
def closed (lexer : Lexer) : Bool :=
  lexer.contexts.isEmpty && lexer.previous.isComplete

/-- A context that the character opens after the last one. -/
def opens (previous : Previous) (char : Char) : Option Quoting :=
  match previous, char with
  | _, '"' => some .double
  | _, '`' => some .backquote
  | .dollar, '(' => some .command
  | .dollar, '{' => some .parameter
  | _, _ => none

/-- The last character, seen from the next one. -/
def seen (previous : Previous) (char : Char) : Previous :=
  match char with
  | '\\' => .backslash previous
  | '$' => .dollar
  | ' ' | '\t' | '\n' => .boundary
  | _ => .other

/-- A character inside of an open context. -/
def nextInside (innermost : Quoting) (outer : List Quoting) (previous : Previous)
    (char : Char) : Option Lexer :=
  let inside : List Quoting := innermost :: outer
  match innermost, previous, char with
  | .single, _, '\'' => some ⟨outer, .other⟩
  | .single, _, _ => some ⟨inside, .other⟩
  -- a backslash and the end of a line are dropped
  | _, .backslash before, '\n' => some ⟨inside, before⟩
  | _, .backslash _, _ => some ⟨inside, .other⟩
  | .double, _, '"' => some ⟨outer, .other⟩
  | .backquote, _, '`' => some ⟨outer, .other⟩
  | .parameter, _, '}' => some ⟨outer, .other⟩
  | .command, _, ')' => some ⟨outer, .other⟩
  | .command, _, '(' => some ⟨.command :: inside, .boundary⟩
  | .command, .boundary, '#' | .backquote, .boundary, '#' => none
  | _, _, _ =>
      if char = '\'' ∧ innermost ≠ .double then
        some ⟨.single :: inside, .other⟩
      else
        match opens previous char with
        | some context => some ⟨context :: inside, .boundary⟩
        | none => some ⟨inside, seen previous char⟩

/-- A character of the line itself; `none` is an operator or a comment. -/
def nextOutside (previous : Previous) (char : Char) : Option Lexer :=
  match previous, char with
  | .backslash before, '\n' => some ⟨[], before⟩
  | .backslash _, _ => some ⟨[], .other⟩
  | _, '\'' => some ⟨[.single], .other⟩
  | .greater, '>' | .greater, '&' | .greater, '|' => some ⟨[], .redirection⟩
  | .less, '>' | .less, '&' => some ⟨[], .redirection⟩
  | _, '&' | _, '|' | _, ';' | _, ')' | _, '\n' | .boundary, '#' => none
  | _, _ =>
      if previous.redirects then
        if char = '<' ∨ char = '>' ∨ char = '#' ∨ char = '(' then
          none
        else if isBlank char then
          some ⟨[], .redirection⟩
        else
          match opens previous char with
          | some context => some ⟨[context], .boundary⟩
          | none => some ⟨[], seen previous char⟩
      else if char = '>' then
        some ⟨[], .greater⟩
      else if char = '<' then
        some ⟨[], .less⟩
      else
        match opens previous char with
        | some context => some ⟨[context], .boundary⟩
        | none => if char = '(' then none else some ⟨[], seen previous char⟩

/-- A character after the text that has been read. -/
def next (lexer : Lexer) (char : Char) : Option Lexer :=
  match lexer.contexts with
  | [] => nextOutside lexer.previous char
  | innermost :: outer => nextInside innermost outer lexer.previous char

/-- The lexer after a text. -/
def scan (lexer : Lexer) (text : List Char) : Option Lexer :=
  text.foldlM next lexer

end Lexer

/-- The words that begin a compound command or end a part of one. -/
def reservedWords : List String :=
  ["!", "\x7b", "\x7d", "case", "do", "done", "elif", "else", "esac", "fi", "for",
    "if", "in", "then", "until", "while"]

/-- The text up to the first blank that follows something. -/
def firstWord (text : List Char) : List Char :=
  (text.dropWhile isBlank).takeWhile fun char => !isBlank char

/-- The text has a first word, which is not reserved. -/
def HasCommandWord (text : List Char) : Prop :=
  firstWord text ≠ [] ∧ String.ofList (firstWord text) ∉ reservedWords

instance (text : List Char) : Decidable (HasCommandWord text) :=
  inferInstanceAs (Decidable (_ ∧ _))

/-- The text is one simple command and nothing is left open. -/
def IsSimpleCommand (text : List Char) : Prop :=
  (Lexer.start.scan text).any Lexer.closed = true ∧ HasCommandWord text

instance (text : List Char) : Decidable (IsSimpleCommand text) :=
  inferInstanceAs (Decidable (_ ∧ _))

/-- How a command is joined to the one before it. -/
inductive Connective where
  /-- `&&` -/
  | andThen
  /-- `;` -/
  | sequence
  deriving Repr, DecidableEq

/-- Read what is left of a command, and the commands after it. -/
def readFrom : Lexer → List Char →
    Option (List Char × List (Connective × List Char))
  | lexer, [] => if lexer.closed then some ([], []) else none
  | lexer, char :: rest =>
      match lexer.next char with
      | some next =>
          (readFrom next rest).map fun read => (char :: read.1, read.2)
      | none =>
          if lexer.closed then
            match char, rest with
            | '&', '&' :: more =>
                (readFrom .start more).map fun read =>
                  ([], (.andThen, read.1) :: read.2)
            | ';', more =>
                (readFrom .start more).map fun read =>
                  ([], (.sequence, read.1) :: read.2)
            | _, _ => none
          else
            none

/-- The first command of a line, and the further ones. -/
def readCommands (line : String) :
    Option (List Char × List (Connective × List Char)) :=
  match readFrom .start line.toList with
  | some (first, further) =>
      if HasCommandWord first ∧
          ∀ command ∈ further, HasCommandWord command.2 then
        some (first, further)
      else
        none
  | none => none

/--
Run further commands after one with a status: which of them are executed, and
the status of the last one that is.  A command that is executed exits with the
code that stands for it.
-/
def runFrom (status : Nat) : List (Connective × Nat) → List Bool × Nat
  | [] => ([], status)
  | (connective, exitCode) :: rest =>
      if connective = .sequence ∨ status = 0 then
        let (executed, last) := runFrom exitCode rest
        (true :: executed, last)
      else
        let (executed, last) := runFrom status rest
        (false :: executed, last)

/-- Run a line whose first command succeeds, given the codes of the others. -/
def runLine (line : String) (exitCodes : List Nat) :
    Option (List Bool × Nat) :=
  match readCommands line with
  | some (_, further) =>
      if further.length = exitCodes.length then
        some (runFrom 0 ((further.map Prod.fst).zip exitCodes))
      else
        none
  | none => none

/-- The shell decides on every command of a line. -/
theorem length_runFrom
    (status : Nat)
    (commands : List (Connective × Nat)) :
    (runFrom status commands).1.length = commands.length := by
  induction commands generalizing status with
  | nil => rfl
  | cons command commands inductionHypothesis =>
      unfold runFrom
      split <;> simp [inductionHypothesis]

/-- A digit goes on with the word before it. -/
theorem Lexer.next_digit
    {char : Char}
    (isDigit : char.isDigit = true) :
    Lexer.next ⟨[], .other⟩ char = some ⟨[], .other⟩ := by
  have stays : ∀ value < 58, 48 ≤ value →
      Lexer.next ⟨[], .other⟩ (Char.ofNat value) = some ⟨[], .other⟩ := by
    decide
  obtain ⟨lower, upper⟩ := Char.isDigit_iff_toNat.mp isDigit
  rw [← Char.ofNat_toNat char]
  exact stays char.toNat (Nat.lt_succ_of_le upper) lower

theorem Lexer.scan_digits
    {text : List Char}
    (areDigits : ∀ char ∈ text, char.isDigit = true) :
    Lexer.scan ⟨[], .other⟩ text = some ⟨[], .other⟩ := by
  induction text with
  | nil => rfl
  | cons char text inductionHypothesis =>
      have first := Lexer.next_digit (areDigits char (by simp))
      have later := inductionHypothesis fun other listed =>
        areDigits other (List.mem_cons_of_mem _ listed)
      rw [Lexer.scan, List.foldlM_cons, first]
      exact later

/-- After a command that is complete, a blank leads to where another begins. -/
theorem Lexer.next_blank
    {lexer : Lexer}
    (isClosed : lexer.closed = true) :
    lexer.next ' ' = some .start := by
  obtain ⟨contexts, previous⟩ := lexer
  cases contexts with
  | cons innermost outer =>
      cases isClosed
  | nil =>
      cases previous with
      | backslash | greater | less | redirection => cases isClosed
      | boundary | dollar | other => rfl

/-- A character that belongs to a command is read as a part of it. -/
theorem readFrom_cons
    {lexer next : Lexer}
    {char : Char}
    (stepped : lexer.next char = some next)
    (rest : List Char) :
    readFrom lexer (char :: rest) =
      (readFrom next rest).map fun read => (char :: read.1, read.2) := by
  conv_lhs => unfold readFrom
  simp only [stepped]

/-- Reading goes through a text that the lexer scans. -/
theorem readFrom_append
    {lexer last : Lexer}
    {text : List Char}
    (scanned : lexer.scan text = some last)
    (rest : List Char) :
    readFrom lexer (text ++ rest) =
      (readFrom last rest).map fun read => (text ++ read.1, read.2) := by
  induction text generalizing lexer with
  | nil =>
      obtain rfl := Option.some.inj scanned
      simp only [List.nil_append]
      cases readFrom lexer rest <;> rfl
  | cons char text inductionHypothesis =>
      obtain ⟨middle, stepped, later⟩ := Option.bind_eq_some_iff.mp scanned
      rw [List.cons_append, readFrom_cons stepped, inductionHypothesis later]
      cases readFrom last rest <;> rfl

/-- How a connective is written between two commands. -/
def Connective.text : Connective → List Char
  | .andThen => [' ', '&', '&', ' ']
  | .sequence => [' ', ';']

/-- Commands written after another one. -/
def joined (commands : List (Connective × List Char)) : List Char :=
  commands.flatMap fun command => command.1.text ++ command.2

/-- A text with blanks around it. -/
def Surrounds (text read : List Char) : Prop :=
  ∃ before after : List Char,
    (∀ char ∈ before, isBlank char = true) ∧
      (∀ char ∈ after, isBlank char = true) ∧
      read = before ++ text ++ after

/-- The first word ends before the blanks that follow a text. -/
theorem firstWord_append
    {text after : List Char}
    (blankAfter : ∀ char ∈ after, isBlank char = true)
    (hasWord : firstWord text ≠ []) :
    firstWord (text ++ after) = firstWord text := by
  have notBlank : text.dropWhile isBlank ≠ [] := by
    intro blank
    exact hasWord (by simp [firstWord, blank])
  have noneAfter : after.takeWhile (fun char => !isBlank char) = [] := by
    cases after with
    | nil => rfl
    | cons char rest => simp [blankAfter char (by simp)]
  unfold firstWord
  rw [List.dropWhile_append]
  simp only [List.isEmpty_iff, notBlank, if_false]
  rw [List.takeWhile_append, noneAfter, List.append_nil]
  split
  next whole => exact ((List.takeWhile_prefix _).eq_of_length whole).symm
  next => rfl

/-- The blanks around a text do not change its first word. -/
theorem Surrounds.hasCommandWord
    {text read : List Char}
    (surrounds : Surrounds text read)
    (hasWord : HasCommandWord text) :
    HasCommandWord read := by
  obtain ⟨before, after, blankBefore, blankAfter, rfl⟩ := surrounds
  have sameWord : firstWord (before ++ text ++ after) = firstWord text := by
    rw [List.append_assoc]
    unfold firstWord
    rw [List.dropWhile_append_of_pos blankBefore]
    exact firstWord_append blankAfter hasWord.1
  unfold HasCommandWord
  rw [sameWord]
  exact hasWord

/-- A connective ends a complete command, and another command begins. -/
theorem readFrom_connective
    {lexer : Lexer}
    (isClosed : lexer.closed = true)
    (connective : Connective)
    (rest : List Char) :
    ∃ blanks : List Char,
      (∀ char ∈ blanks, isBlank char = true) ∧
        readFrom lexer (connective.text ++ rest) =
          (readFrom .start rest).map fun read =>
            ([' '], (connective, blanks ++ read.1) :: read.2) := by
  have afterBlank := readFrom_cons (Lexer.next_blank isClosed)
  have blankAgain : Lexer.start.next ' ' = some .start := rfl
  have startsAgain := readFrom_cons blankAgain
  cases connective with
  | andThen =>
      refine ⟨[' '], blank_isBlank, ?_⟩
      have ends :
          readFrom .start ('&' :: '&' :: ' ' :: rest) =
            (readFrom .start (' ' :: rest)).map fun read =>
              ([], (.andThen, read.1) :: read.2) := rfl
      rw [Connective.text, List.cons_append, afterBlank]
      simp only [List.cons_append, List.nil_append]
      rw [ends, startsAgain]
      cases readFrom .start rest <;> rfl
  | sequence =>
      refine ⟨[], by simp, ?_⟩
      have ends :
          readFrom .start (';' :: rest) =
            (readFrom .start rest).map fun read =>
              ([], (.sequence, read.1) :: read.2) := rfl
      rw [Connective.text, List.cons_append, afterBlank]
      simp only [List.cons_append, List.nil_append]
      rw [ends]
      cases readFrom .start rest <;> rfl

/-- After a complete command, the further ones are read as they are written. -/
theorem readFrom_joined
    {lexer : Lexer}
    {commands : List (Connective × List Char)}
    (isClosed : lexer.closed = true)
    (areSimple : ∀ command ∈ commands, IsSimpleCommand command.2) :
    ∃ blanks further,
      readFrom lexer (joined commands) = some (blanks, further) ∧
        (∀ char ∈ blanks, isBlank char = true) ∧
        further.map Prod.fst = commands.map Prod.fst ∧
        ∀ command ∈ further, HasCommandWord command.2 := by
  induction commands generalizing lexer with
  | nil =>
      refine ⟨[], [], ?_, by simp, rfl, by simp⟩
      simp [joined, readFrom, isClosed]
  | cons command commands inductionHypothesis =>
      obtain ⟨connective, text⟩ := command
      obtain ⟨isScanned, hasWord⟩ := areSimple (connective, text) (by simp)
      obtain ⟨last, scanned, lastClosed⟩ := (Option.any_eq_true _ _).mp isScanned
      obtain ⟨after, further, readLater, blankAfter, sameConnectives, haveWords⟩ :=
        inductionHypothesis lastClosed fun command listed =>
          areSimple command (List.mem_cons_of_mem _ listed)
      obtain ⟨before, blankBefore, readFirst⟩ :=
        readFrom_connective isClosed connective (text ++ joined commands)
      have wordRead : HasCommandWord (before ++ (text ++ after)) :=
        Surrounds.hasCommandWord
          ⟨before, after, blankBefore, blankAfter, (List.append_assoc ..).symm⟩ hasWord
      refine ⟨[' '], (connective, before ++ (text ++ after)) :: further, ?_,
        blank_isBlank, ?_, List.forall_mem_cons.mpr ⟨wordRead, haveWords⟩⟩
      · calc
          readFrom lexer (joined ((connective, text) :: commands)) =
              readFrom lexer (connective.text ++ (text ++ joined commands)) := by
            simp [joined]
          _ = some ([' '], (connective, before ++ (text ++ after)) :: further) := by
            rw [readFirst, readFrom_append scanned, readLater]
            rfl
      · rw [List.map_cons, List.map_cons, sameConnectives]

/-- A line of simple commands runs them with the connectives between them. -/
theorem runLine_joined
    {first : List Char}
    {commands : List (Connective × List Char)}
    {exitCodes : List Nat}
    (isSimple : IsSimpleCommand first)
    (areSimple : ∀ command ∈ commands, IsSimpleCommand command.2)
    (oneEach : exitCodes.length = commands.length) :
    runLine (String.ofList (first ++ joined commands)) exitCodes =
      some (runFrom 0 ((commands.map Prod.fst).zip exitCodes)) := by
  obtain ⟨isScanned, firstWord⟩ := isSimple
  obtain ⟨last, scanned, lastClosed⟩ := (Option.any_eq_true _ _).mp isScanned
  obtain ⟨after, further, readLater, blankAfter, sameConnectives, haveWords⟩ :=
    readFrom_joined lastClosed areSimple
  have firstRead : HasCommandWord (first ++ after) :=
    Surrounds.hasCommandWord ⟨[], after, by simp, blankAfter, rfl⟩ firstWord
  have isRead :
      readCommands (String.ofList (first ++ joined commands)) =
        some (first ++ after, further) := by
    unfold readCommands
    rw [String.toList_ofList, readFrom_append scanned, readLater]
    exact if_pos ⟨firstRead, haveWords⟩
  have sameLength : further.length = exitCodes.length := by
    rw [oneEach, ← List.length_map Prod.fst, sameConnectives, List.length_map]
  unfold runLine
  rw [isRead]
  simp [sameLength, sameConnectives]

end Shell

end Prescott
