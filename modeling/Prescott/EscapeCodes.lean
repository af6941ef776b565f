import Mathlib.Data.List.Basic

namespace Prescott

/-!
# Codes that control the screen

`docker stats` redraws what it shows.  The codes it does this with are removed
from a text, and a code that a cut leaves incomplete is kept.
-/

/-- ESC, `'\x1b'`. -/
def escape : Char :=
  '\x1b'

/-- `[J,H]` -/
def isCommand (char : Char) : Bool :=
  char == 'J' || char == ',' || char == 'H'

/-- The length of the match of `\x1b\[\d?[J,H]` at the start of a text, 0 if there is none. -/
def codeLength : List Char → Nat
  | first :: bracket :: next :: rest =>
      if first = escape ∧ bracket = '[' then
        if isCommand next then
          3
        else if next.isDigit ∧ rest.head?.any isCommand then
          4
        else
          0
      else
        0
  | _ => 0

/-- Drop the rest of a code, of which a number of characters is left. -/
def removeFrom : Nat → List Char → List Char
  | _, [] => []
  | left + 1, _ :: rest => removeFrom left rest
  | 0, char :: rest =>
      match codeLength (char :: rest) with
      | 0 => char :: removeFrom 0 rest
      | left + 1 => removeFrom left rest

/-- `str.replace(/\x1b\[\d?[J,H]/g, '')` -/
def removeEscapeCharacters (str : List Char) : List Char :=
  removeFrom 0 str

/-- A code: its command stands behind a digit or none. -/
inductive IsCode : List Char → Prop where
  | plain
      {command : Char}
      (isCommand : isCommand command = true) :
      IsCode [escape, '[', command]
  | numbered
      {digit command : Char}
      (isDigit : digit.isDigit = true)
      (isCommand : isCommand command = true) :
      IsCode [escape, '[', digit, command]

/-- A plain text with codes put into it. -/
inductive WithCodes : List Char → List Char → Prop where
  | nil : WithCodes [] []
  | char
      {plain text : List Char}
      (char : Char)
      (rest : WithCodes plain text) :
      WithCodes (char :: plain) (char :: text)
  | code
      {code plain text : List Char}
      (isCode : IsCode code)
      (rest : WithCodes plain text) :
      WithCodes plain (code ++ text)

/-- The beginning of a code that a cut leaves. -/
structure IsCutCode (cut missing : List Char) : Prop where
  isCode : IsCode (cut ++ missing)
  begun : cut ≠ []
  goesOn : missing ≠ []

section

variable {plain text left right rest code cut missing : List Char}
variable {char : Char}

theorem isCommand_of_isDigit
    (digit : char.isDigit = true) :
    isCommand char = false := by
  rw [← Bool.not_eq_true]
  intro command
  simp only [isCommand, Bool.or_eq_true, beq_iff_eq] at command
  rcases command with (rfl | rfl) | rfl <;> cases digit

theorem removeFrom_append
    (left : List Char)
    (rest : List Char) :
    removeFrom left.length (left ++ rest) = removeFrom 0 rest := by
  induction left with
  | nil => rfl
  | cons char others inductionHypothesis =>
      exact inductionHypothesis

theorem codeLength_append
    (isCode : IsCode code)
    (rest : List Char) :
    codeLength (code ++ rest) = code.length := by
  cases isCode with
  | plain command =>
      simp [codeLength, command]
  | numbered digit command =>
      simp [codeLength, digit, command, isCommand_of_isDigit digit]

theorem isCode_of_codeLength
    (matched : codeLength text ≠ 0) :
    ∃ code rest, text = code ++ rest ∧ IsCode code := by
  match text with
  | first :: bracket :: next :: rest =>
      simp only [codeLength] at matched
      split at matched
      next starts =>
        obtain ⟨rfl, rfl⟩ := starts
        split at matched
        next command => exact ⟨[escape, '[', next], rest, rfl, .plain command⟩
        next =>
          split at matched
          next numbered =>
            obtain ⟨last, others, rfl⟩ : ∃ last others, rest = last :: others :=
              List.exists_cons_of_ne_nil (by rintro rfl; simp at numbered)
            exact ⟨[escape, '[', next, last], others, rfl,
              .numbered numbered.1 numbered.2⟩
          next => exact absurd rfl matched
      next => exact absurd rfl matched
  | [] | [_] | [_, _] => exact absurd rfl matched

/-- A code is removed. -/
theorem removeEscapeCharacters_code
    (isCode : IsCode code)
    (rest : List Char) :
    removeEscapeCharacters (code ++ rest) = removeEscapeCharacters rest := by
  have matched := codeLength_append isCode rest
  obtain ⟨first, others, rfl⟩ : ∃ first others, code = first :: others := by
    cases isCode <;> exact ⟨_, _, rfl⟩
  rw [List.cons_append] at matched ⊢
  simp only [removeEscapeCharacters, removeFrom, matched, List.length_cons]
  exact removeFrom_append others rest

theorem removeEscapeCharacters_cons
    (noCode : codeLength (char :: rest) = 0) :
    removeEscapeCharacters (char :: rest) =
      char :: removeEscapeCharacters rest := by
  simp only [removeEscapeCharacters, removeFrom, noCode]

theorem codeLength_cons
    (other : char ≠ escape) :
    codeLength (char :: rest) = 0 := by
  unfold codeLength
  split
  next same =>
    cases same
    rw [if_neg fun starts => other starts.1]
  next => rfl

/-- Only codes begin with an escape character in a text without one left. -/
theorem isCode_of_noEscape
    (noEscape : escape ∉ removeEscapeCharacters (escape :: rest)) :
    ∃ code later, escape :: rest = code ++ later ∧ IsCode code := by
  refine isCode_of_codeLength fun noCode => noEscape ?_
  rw [removeEscapeCharacters_cons noCode]
  exact List.mem_cons_self

/-- What is left of a text is what its codes were put into. -/
theorem withCodes_iff
    (noEscape : escape ∉ plain) :
    WithCodes plain text ↔ removeEscapeCharacters text = plain := by
  constructor
  · intro withCodes
    induction withCodes with
    | nil => rfl
    | char char rest inductionHypothesis =>
        have other : char ≠ escape := fun same => noEscape (same ▸ List.mem_cons_self)
        rw [removeEscapeCharacters_cons (codeLength_cons other),
          inductionHypothesis fun member => noEscape (.tail _ member)]
    | code isCode rest inductionHypothesis =>
        rw [removeEscapeCharacters_code isCode]
        exact inductionHypothesis noEscape
  · rintro rfl
    induction size : text.length using Nat.strongRecOn generalizing text with
    | ind size inductionHypothesis =>
        subst size
        cases text with
        | nil => exact .nil
        | cons char others =>
            by_cases isEscape : char = escape
            · subst isEscape
              obtain ⟨code, later, begins, isCode⟩ := isCode_of_noEscape noEscape
              rw [begins, removeEscapeCharacters_code isCode] at noEscape ⊢
              refine .code isCode (inductionHypothesis later.length ?_ noEscape rfl)
              rw [begins, List.length_append]
              cases isCode <;> simp
            · have kept := removeEscapeCharacters_cons (@codeLength_cons others char isEscape)
              rw [kept] at noEscape ⊢
              exact .char char (inductionHypothesis others.length (Nat.lt_succ_self _)
                (fun member => noEscape (.tail _ member)) rfl)

namespace IsCutCode

variable (isCut : IsCutCode cut missing)

include isCut

theorem eq_beginning :
    cut = [escape] ∨ cut = [escape, '['] ∨
      ∃ digit : Char, digit.isDigit = true ∧ cut = [escape, '[', digit] := by
  obtain ⟨isCode, begun, goesOn⟩ := isCut
  generalize whole : cut ++ missing = code at isCode
  have shorter : cut.length < code.length := by
    rw [← whole, List.length_append]
    exact Nat.lt_add_of_pos_right (List.length_pos_of_ne_nil goesOn)
  match cut, begun with
  | [first], _ =>
      cases isCode <;> simp_all
  | [first, second], _ =>
      cases isCode <;> simp_all
  | [first, second, third], _ =>
      cases isCode <;> simp_all
  | first :: second :: third :: fourth :: others, _ =>
      cases isCode <;>
        simp only [List.length_cons, List.length_nil] at shorter <;>
        omega

theorem eq_cons : ∃ others, cut = escape :: others := by
  rcases isCut.eq_beginning with rfl | rfl | ⟨digit, _, rfl⟩ <;> exact ⟨_, rfl⟩

theorem escape_mem : escape ∈ cut := by
  obtain ⟨others, rfl⟩ := isCut.eq_cons
  exact List.mem_cons_self

theorem removeEscapeCharacters_eq : removeEscapeCharacters cut = cut := by
  rcases isCut.eq_beginning with rfl | rfl | ⟨digit, isDigit, rfl⟩
  · rfl
  · rfl
  · simp [removeEscapeCharacters, removeFrom, codeLength,
      isCommand_of_isDigit isDigit, escape]

end IsCutCode

/--
The first part of a text is cleaned as in the whole text, up to the beginning
of a code that the second part goes on with.
-/
theorem removeEscapeCharacters_append
    (noEscape : escape ∉ removeEscapeCharacters (left ++ right)) :
    ∃ kept cut,
      removeEscapeCharacters left = kept ++ cut ∧
        (cut = [] ∧
            removeEscapeCharacters (left ++ right) =
              kept ++ removeEscapeCharacters right ∨
          ∃ missing rest,
            IsCutCode cut missing ∧
              right = missing ++ rest ∧
              removeEscapeCharacters (left ++ right) =
                kept ++ removeEscapeCharacters rest) := by
  -- along the characters and the codes of the first part
  induction size : left.length using Nat.strongRecOn generalizing left with
  | ind size inductionHypothesis =>
      subst size
      cases left with
      | nil => exact ⟨[], [], rfl, .inl ⟨rfl, rfl⟩⟩
      | cons char others =>
          by_cases isEscape : char = escape
          · subst isEscape
            obtain ⟨code, later, begins, isCode⟩ := isCode_of_noEscape noEscape
            change (escape :: others) ++ right = code ++ later at begins
            rw [begins, removeEscapeCharacters_code isCode] at noEscape ⊢
            rcases List.append_eq_append_iff.mp begins with
                ⟨missing, rfl, rfl⟩ | ⟨after, whole, rfl⟩
            · by_cases complete : missing = []
              · subst complete
                rw [List.append_nil] at isCode
                refine ⟨[], [], ?_, .inl ⟨rfl, rfl⟩⟩
                have removed := removeEscapeCharacters_code isCode []
                rwa [List.append_nil] at removed
              · have isCut : IsCutCode (escape :: others) missing :=
                  ⟨isCode, List.cons_ne_nil _ _, complete⟩
                exact ⟨[], _, isCut.removeEscapeCharacters_eq,
                  .inr ⟨missing, later, isCut, rfl, rfl⟩⟩
            · rw [whole, removeEscapeCharacters_code isCode]
              refine inductionHypothesis after.length ?_ noEscape rfl
              rw [whole, List.length_append]
              cases isCode <;> simp
          · have noCode := fun rest => @codeLength_cons rest char isEscape
            rw [List.cons_append, removeEscapeCharacters_cons (noCode _)]
              at noEscape ⊢
            rw [removeEscapeCharacters_cons (noCode _)]
            obtain ⟨kept, cut, first, second⟩ :=
              inductionHypothesis others.length (Nat.lt_succ_self _)
                (fun member => noEscape (.tail _ member)) rfl
            refine ⟨char :: kept, cut, congrArg (char :: ·) first, ?_⟩
            refine second.imp
              (And.imp_right fun whole => congrArg (char :: ·) whole) ?_
            rintro ⟨missing, rest, isCut, begins, whole⟩
            exact ⟨missing, rest, isCut, begins, congrArg (char :: ·) whole⟩

/-- What stands behind a text without a cut code is cleaned by itself. -/
theorem removeEscapeCharacters_append_of_notMem
    (noCut : escape ∉ removeEscapeCharacters left)
    (right : List Char) :
    removeEscapeCharacters (left ++ right) =
      removeEscapeCharacters left ++ removeEscapeCharacters right := by
  induction size : left.length using Nat.strongRecOn generalizing left with
  | ind size inductionHypothesis =>
      subst size
      cases left with
      | nil => rfl
      | cons char others =>
          by_cases isEscape : char = escape
          · subst isEscape
            obtain ⟨code, later, begins, isCode⟩ := isCode_of_noEscape noCut
            rw [begins, removeEscapeCharacters_code isCode] at noCut
            rw [begins, List.append_assoc, removeEscapeCharacters_code isCode,
              removeEscapeCharacters_code isCode]
            refine inductionHypothesis later.length ?_ noCut rfl
            rw [begins, List.length_append]
            cases isCode <;> simp
          · have noCode := fun rest => @codeLength_cons rest char isEscape
            rw [removeEscapeCharacters_cons (noCode _)] at noCut
            rw [List.cons_append, removeEscapeCharacters_cons (noCode _),
              removeEscapeCharacters_cons (noCode _)]
            exact congrArg (char :: ·)
              (inductionHypothesis others.length (Nat.lt_succ_self _)
                (fun member => noCut (.tail _ member)) rfl)

theorem removeEscapeCharacters_of_notMem
    (noEscape : escape ∉ text) :
    removeEscapeCharacters text = text := by
  induction text with
  | nil => rfl
  | cons char others inductionHypothesis =>
      have other : char ≠ escape := by
        rintro rfl
        exact noEscape List.mem_cons_self
      rw [removeEscapeCharacters_cons (codeLength_cons other),
        inductionHypothesis fun member => noEscape (.tail _ member)]

end

end Prescott
