import Prescott.ShellCommands

namespace Prescott

/-!
# Words of a simple command

A line of one simple command as a POSIX shell splits it: words of literal
characters and of double quoted text, and a file that is redirected to standard
input.  A line in which a character would be expanded, or would end the
command, is refused.
-/

namespace Shell

/-- The characters that stand for themselves outside of quotes. -/
def isLiteral (char : Char) : Bool :=
  char.isAlphanum || ['%', '+', ',', '-', '.', '/', ':', '=', '@', '_'].contains char

/-- The characters that stand for themselves between double quotes. -/
def isQuotable (char : Char) : Bool :=
  !(['"', '$', '\x60', '\\'].contains char)

/-- A part of a simple command. -/
inductive Token where
  | word (text : List Char)
  /-- `<` -/
  | input
  deriving Repr, DecidableEq

/-- Where the reader stands, with the word that it has read so far. -/
inductive ReadingMode where
  | between
  | word (text : List Char)
  | quoted (text : List Char)
  deriving Repr, DecidableEq

/-- The words and redirections of a line. -/
def readTokens : ReadingMode → List Char → Option (List Token)
  | .between, [] => some []
  | .word text, [] => some [.word text]
  | .quoted _, [] => none
  | .quoted text, char :: rest =>
      if char = '"' then
        readTokens (.word text) rest
      else if isQuotable char then
        readTokens (.quoted (text ++ [char])) rest
      else
        none
  | .word text, char :: rest =>
      if isBlank char then
        (readTokens .between rest).map (.word text :: ·)
      else if char = '"' then
        readTokens (.quoted text) rest
      else if isLiteral char then
        readTokens (.word (text ++ [char])) rest
      else
        none
  | .between, char :: rest =>
      if isBlank char then
        readTokens .between rest
      else if char = '<' then
        (readTokens .between rest).map (.input :: ·)
      else if char = '"' then
        readTokens (.quoted []) rest
      else if isLiteral char then
        readTokens (.word [char]) rest
      else
        none

/-- What a simple command is run with. -/
structure SimpleCommand where
  argv : List (List Char) := []
  /-- The file that is redirected to the standard input. -/
  stdin : Option (List Char) := none
  deriving Repr, DecidableEq

/-- Every `<` has to be followed by the word that it is about. -/
def commandOf : List Token → Option SimpleCommand
  | [] => some {}
  | .word text :: rest =>
      (commandOf rest).map fun command => { command with argv := text :: command.argv }
  | .input :: .word path :: rest =>
      (commandOf rest).map fun command =>
        { command with stdin := some (command.stdin.getD path) }
  | .input :: _ => none

/-- The parts after a whole command go on with its words and redirect it anew. -/
theorem commandOf_append
    {before : List Token}
    {command : SimpleCommand}
    (isCommand : commandOf before = some command)
    (after : List Token) :
    commandOf (before ++ after) =
      (commandOf after).map fun further =>
        { argv := command.argv ++ further.argv
          stdin := further.stdin.or command.stdin } := by
  fun_induction commandOf before generalizing command with
  | case1 =>
      cases isCommand
      simp
  | case2 text rest inductionHypothesis =>
      obtain ⟨later, isLater, rfl⟩ := Option.map_eq_some_iff.mp isCommand
      simp [commandOf, inductionHypothesis isLater, Function.comp_def]
  | case3 path rest inductionHypothesis =>
      obtain ⟨later, isLater, rfl⟩ := Option.map_eq_some_iff.mp isCommand
      simp [commandOf, inductionHypothesis isLater, Function.comp_def]
  | case4 => cases isCommand

/-- The first word names the command: it assigns nothing and is not reserved. -/
def NamesCommand (command : SimpleCommand) : Prop :=
  ∃ name ∈ command.argv.head?, '=' ∉ name ∧ String.ofList name ∉ reservedWords

instance (command : SimpleCommand) : Decidable (NamesCommand command) :=
  inferInstanceAs (Decidable (∃ name ∈ command.argv.head?, _))

/-- Read a line of one simple command. -/
def readCommand (line : String) : Option SimpleCommand :=
  match (readTokens .between line.toList).bind commandOf with
  | some command => if NamesCommand command then some command else none
  | none => none

/-- How a part of a word is written. -/
inductive Piece where
  | plain (text : List Char)
  | quoted (text : List Char)
  deriving Repr, DecidableEq

namespace Piece

/-- The piece as it is written. -/
def text : Piece → List Char
  | .plain text => text
  | .quoted text => '"' :: text ++ ['"']

/-- What the shell makes of it. -/
def value : Piece → List Char
  | .plain text | .quoted text => text

/-- Only characters that stand for themselves where they are. -/
def WellFormed : Piece → Prop
  | .plain text => ∀ char ∈ text, isLiteral char = true
  | .quoted text => ∀ char ∈ text, isQuotable char = true

end Piece

/-- A word as it is written, piece by piece. -/
abbrev Word :=
  List Piece

namespace Word

/-- The word as it is written. -/
def text (word : Word) : List Char :=
  word.flatMap Piece.text

/-- What the shell makes of the word. -/
def value (word : Word) : List Char :=
  word.flatMap Piece.value

/-- Something is written, and nothing in it is special to the shell. -/
def WellFormed (word : Word) : Prop :=
  word.text ≠ [] ∧ ∀ piece ∈ word, piece.WellFormed

end Word

/-- What stands between the blanks of a line. -/
inductive Argument where
  | word (pieces : Word)
  | input
  deriving Repr, DecidableEq

namespace Argument

/-- The argument as it is written. -/
def text : Argument → List Char
  | .word pieces => Word.text pieces
  | .input => ['<']

/-- What the shell makes of the argument. -/
def token : Argument → Token
  | .word pieces => .word (Word.value pieces)
  | .input => .input

/-- Nothing in the argument is special to the shell. -/
def WellFormed : Argument → Prop
  | .word pieces => Word.WellFormed pieces
  | .input => True

end Argument

/-- The arguments with a blank between each two of them. -/
def writeLine : List Argument → List Char
  | [] => []
  | first :: further =>
      first.text ++ further.flatMap fun argument => ' ' :: argument.text

theorem writeLine_snoc
    {arguments : List Argument}
    (written : arguments ≠ [])
    (last : Argument) :
    writeLine (arguments ++ [last]) = writeLine arguments ++ ' ' :: last.text := by
  cases arguments with
  | nil => exact absurd rfl written
  | cons first further => simp [writeLine]

section Reading

variable {char : Char}
variable {word rest : List Char}

/-- A literal character neither ends a word nor begins a quotation. -/
theorem not_special_of_isLiteral
    (literal : isLiteral char = true) :
    isBlank char = false ∧ char ≠ '"' ∧ char ≠ '<' := by
  refine ⟨?_, ?_, ?_⟩
  · cases blank : isBlank char with
    | false => rfl
    | true =>
        rw [isBlank, Bool.or_eq_true, beq_iff_eq, beq_iff_eq] at blank
        rcases blank with rfl | rfl <;> cases literal
  · rintro rfl
    cases literal
  · rintro rfl
    cases literal

theorem readTokens_word_literal
    (literal : isLiteral char = true) :
    readTokens (.word word) (char :: rest) = readTokens (.word (word ++ [char])) rest := by
  obtain ⟨notBlank, notQuote, _⟩ := not_special_of_isLiteral literal
  simp [readTokens, notBlank, notQuote, literal]

theorem readTokens_between_literal
    (literal : isLiteral char = true) :
    readTokens .between (char :: rest) = readTokens (.word [char]) rest := by
  obtain ⟨notBlank, notQuote, notInput⟩ := not_special_of_isLiteral literal
  simp [readTokens, notBlank, notQuote, notInput, literal]

/-- Literal text goes on with the word. -/
theorem readTokens_plain
    {text : List Char}
    (literal : ∀ char ∈ text, isLiteral char = true) :
    readTokens (.word word) (text ++ rest) = readTokens (.word (word ++ text)) rest := by
  induction text generalizing word with
  | nil => simp
  | cons char text inductionHypothesis =>
      rw [List.cons_append, readTokens_word_literal (literal char (by simp)),
        inductionHypothesis fun other listed => literal other (by simp [listed]),
        List.append_assoc, List.singleton_append]

/-- Quoted text goes on with the word up to the closing quote. -/
theorem readTokens_quoted
    {text : List Char}
    (quotable : ∀ char ∈ text, isQuotable char = true) :
    readTokens (.quoted word) (text ++ '"' :: rest) =
      readTokens (.word (word ++ text)) rest := by
  induction text generalizing word with
  | nil => simp [readTokens]
  | cons char text inductionHypothesis =>
      have isQuoted := quotable char (by simp)
      have notQuote : char ≠ '"' := by
        rintro rfl
        cases isQuoted
      rw [List.cons_append, readTokens, if_neg notQuote, if_pos isQuoted,
        inductionHypothesis fun other listed => quotable other (by simp [listed]),
        List.append_assoc, List.singleton_append]

theorem readTokens_piece
    {piece : Piece}
    (wellFormed : piece.WellFormed) :
    readTokens (.word word) (piece.text ++ rest) =
      readTokens (.word (word ++ piece.value)) rest := by
  cases piece with
  | plain text => exact readTokens_plain wellFormed
  | quoted text =>
      have opens :
          readTokens (.word word) ('"' :: (text ++ '"' :: rest)) =
            readTokens (.quoted word) (text ++ '"' :: rest) := by
        simp [readTokens, isBlank]
      simp only [Piece.text, Piece.value, List.cons_append, List.append_assoc,
        List.nil_append]
      rw [opens, readTokens_quoted wellFormed]

theorem readTokens_pieces
    {pieces : Word}
    (wellFormed : ∀ piece ∈ pieces, piece.WellFormed) :
    readTokens (.word word) (Word.text pieces ++ rest) =
      readTokens (.word (word ++ Word.value pieces)) rest := by
  induction pieces generalizing word with
  | nil => simp [Word.text, Word.value]
  | cons piece pieces inductionHypothesis =>
      have later := @inductionHypothesis (word ++ piece.value) fun other listed =>
        wellFormed other (by simp [listed])
      rw [List.append_assoc] at later
      simp only [Word.text, Word.value, List.flatMap_cons, List.append_assoc]
      rw [readTokens_piece (wellFormed piece (by simp))]
      exact later

/-- Between the words a word begins with whatever it is written with. -/
theorem readTokens_firstWord
    {pieces : Word}
    (wellFormed : Word.WellFormed pieces) :
    readTokens .between (Word.text pieces ++ rest) =
      readTokens (.word (Word.value pieces)) rest := by
  obtain ⟨written, arePieces⟩ := wellFormed
  induction pieces with
  | nil => exact absurd rfl written
  | cons piece pieces inductionHypothesis =>
      have laterPieces : ∀ other ∈ pieces, other.WellFormed :=
        fun other listed => arePieces other (by simp [listed])
      have isPiece := arePieces piece (by simp)
      simp only [Word.text, Word.value, List.flatMap_cons, List.append_assoc]
      cases piece with
      | plain text =>
          cases text with
          | nil => exact inductionHypothesis written laterPieces
          | cons char text =>
              have literal := isPiece char (by simp)
              simp only [Piece.text, Piece.value, List.cons_append]
              rw [readTokens_between_literal literal,
                readTokens_plain fun other listed => isPiece other (by simp [listed])]
              exact readTokens_pieces laterPieces
      | quoted text =>
          have opens :
              readTokens .between ('"' :: (text ++ '"' :: (Word.text pieces ++ rest))) =
                readTokens (.quoted []) (text ++ '"' :: (Word.text pieces ++ rest)) := by
            simp [readTokens, isBlank]
          simp only [Piece.text, Piece.value, List.cons_append, List.append_assoc]
          refine opens.trans ?_
          rw [readTokens_quoted isPiece]
          exact readTokens_pieces laterPieces

/-- An argument is read up to the blank after it, or to the end of the line. -/
theorem readTokens_argument
    {argument : Argument}
    (wellFormed : argument.WellFormed)
    (ends : rest = [] ∨ ∃ further, rest = ' ' :: further) :
    readTokens .between (argument.text ++ rest) =
      (readTokens .between rest).map (argument.token :: ·) := by
  cases argument with
  | word pieces =>
      rw [Argument.text, readTokens_firstWord wellFormed]
      rcases ends with rfl | ⟨further, rfl⟩
      · rfl
      · simp [readTokens, isBlank, Argument.token]
  | input => simp [Argument.text, readTokens, isBlank, Argument.token]

/-- A line is read as the arguments that it is written from. -/
theorem readTokens_writeLine
    {arguments : List Argument}
    (wellFormed : ∀ argument ∈ arguments, argument.WellFormed) :
    readTokens .between (writeLine arguments) = some (arguments.map Argument.token) := by
  induction arguments with
  | nil => rfl
  | cons first further inductionHypothesis =>
      have later := inductionHypothesis fun other listed => wellFormed other (by simp [listed])
      rw [writeLine, readTokens_argument (wellFormed first (by simp))]
      · cases further with
        | nil => rfl
        | cons second others =>
            rw [List.flatMap_cons, List.cons_append]
            have blank :
                readTokens .between
                    (' ' :: (second.text ++
                      others.flatMap fun argument => ' ' :: argument.text)) =
                  readTokens .between (writeLine (second :: others)) := by
              simp [readTokens, isBlank, writeLine]
            rw [blank, later]
            rfl
      · cases further with
        | nil => exact .inl rfl
        | cons second others => exact .inr ⟨_, rfl⟩

/-- The command of a line that is written from well-formed arguments. -/
theorem readCommand_writeLine
    {arguments : List Argument}
    {command : SimpleCommand}
    {line : String}
    (written : line.toList = writeLine arguments)
    (wellFormed : ∀ argument ∈ arguments, argument.WellFormed)
    (isCommand : commandOf (arguments.map Argument.token) = some command)
    (named : NamesCommand command) :
    readCommand line = some command := by
  rw [readCommand, written, readTokens_writeLine wellFormed, Option.bind_some, isCommand]
  exact if_pos named

end Reading

end Shell

end Prescott
