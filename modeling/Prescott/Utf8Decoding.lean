import Mathlib.Data.List.Basic
import Mathlib.Tactic.Ring

namespace Prescott.Utf8

/-!
# Decoding UTF-8

The decoder that replaces ill-formed sequences by a replacement character
instead of failing.  A byte of ASCII ends whatever was started before it, so a
text may be cut there, and the decoder never makes a character of ASCII up.
-/

/-- The character in place of an ill-formed sequence. -/
def replacement : Char :=
  '\uFFFD'

/--
A started sequence: the bits so far, the range of its next byte and how many
bytes follow after that one.  No completion of it is a character of ASCII.
-/
structure Started where
  codePoint : Nat
  lower : Nat
  upper : Nat
  more : Nat
  lower_ge : 0x80 ≤ lower
  upper_le : upper ≤ 0xBF
  large : 0x80 ≤ (codePoint * 64 + lower % 64) * 64 ^ more

namespace Started

/-- The started sequence with its next byte. -/
def extend
    (started : Started)
    (byte more : Nat)
    (continues : started.more = more + 1)
    (inRange : started.lower ≤ byte ∧ byte ≤ started.upper) :
    Started where
  codePoint := started.codePoint * 64 + byte % 64
  lower := 0x80
  upper := 0xBF
  more := more
  lower_ge := Nat.le_refl _
  upper_le := Nat.le_refl _
  large := by
    have large := started.large
    have lower_ge := started.lower_ge
    have upper_le := started.upper_le
    have bits : started.lower % 64 ≤ byte % 64 := by
      omega
    calc
      0x80 ≤ (started.codePoint * 64 + started.lower % 64) *
          64 ^ started.more := large
      _ ≤ (started.codePoint * 64 + byte % 64) * 64 ^ (more + 1) := by
          rw [continues]
          exact Nat.mul_le_mul_right _ (Nat.add_le_add_left bits _)
      _ = ((started.codePoint * 64 + byte % 64) * 64 + 0x80 % 64) *
          64 ^ more := by
          ring

end Started

/-- The first byte of a sequence: what it completes and what it starts. -/
def lead (byte : Nat) : List Char × Option Started :=
  if byte ≤ 0x7F then
    ([Char.ofNat byte], none)
  else if two : 0xC2 ≤ byte ∧ byte ≤ 0xDF then
    ([], some ⟨byte % 32, 0x80, 0xBF, 0, by omega, by omega, by omega⟩)
  else if byte = 0xE0 then
    ([], some ⟨0, 0xA0, 0xBF, 1, by omega, by omega, by omega⟩)
  else if byte = 0xED then
    ([], some ⟨0xD, 0x80, 0x9F, 1, by omega, by omega, by omega⟩)
  else if three : 0xE1 ≤ byte ∧ byte ≤ 0xEF then
    ([], some ⟨byte % 16, 0x80, 0xBF, 1, by omega, by omega, by omega⟩)
  else if byte = 0xF0 then
    ([], some ⟨0, 0x90, 0xBF, 2, by omega, by omega, by omega⟩)
  else if byte = 0xF4 then
    ([], some ⟨4, 0x80, 0x8F, 2, by omega, by omega, by omega⟩)
  else if four : 0xF1 ≤ byte ∧ byte ≤ 0xF3 then
    ([], some ⟨byte % 8, 0x80, 0xBF, 2, by omega, by omega, by omega⟩)
  else
    ([replacement], none)

/-- One byte: a byte that does not continue a sequence starts a new one. -/
def step : Option Started → Nat → List Char × Option Started
  | none, byte => lead byte
  | some started, byte =>
      if inRange : started.lower ≤ byte ∧ byte ≤ started.upper then
        match continues : started.more with
        | 0 => ([Char.ofNat (started.codePoint * 64 + byte % 64)], none)
        | more + 1 => ([], some (started.extend byte more continues inRange))
      else
        (replacement :: (lead byte).1, (lead byte).2)

/-- Decode the bytes that follow a started sequence. -/
def decodeFrom : Option Started → List UInt8 → List Char
  | none, [] => []
  | some _, [] => [replacement]
  | state, byte :: rest =>
      (step state byte.toNat).1 ++ decodeFrom (step state byte.toNat).2 rest

/-- Decode all bytes. -/
def decode (bytes : List UInt8) : List Char :=
  decodeFrom none bytes

theorem lead_ascii
    {byte : Nat}
    (ascii : byte ≤ 0x7F) :
    lead byte = ([Char.ofNat byte], none) :=
  if_pos ascii

/-- A byte of ASCII continues no sequence. -/
theorem step_ascii
    (started : Started)
    {byte : Nat}
    (ascii : byte ≤ 0x7F) :
    step (some started) byte =
      ([replacement, Char.ofNat byte], none) := by
  have outside : ¬ (started.lower ≤ byte ∧ byte ≤ started.upper) := by
    have lower_ge := started.lower_ge
    omega
  simp only [step, outside, dite_false, lead_ascii ascii]

/-- A text is decoded in parts when it is cut around a byte of ASCII. -/
theorem decodeFrom_append_ascii
    (state : Option Started)
    (leading trailing : List UInt8)
    {byte : UInt8}
    (ascii : byte.toNat ≤ 0x7F) :
    decodeFrom state (leading ++ byte :: trailing) =
      decodeFrom state leading ++ Char.ofNat byte.toNat :: decode trailing := by
  induction leading generalizing state with
  | nil =>
      cases state with
      | none =>
          simp [decodeFrom, step, lead_ascii ascii, decode]
      | some started =>
          simp [decodeFrom, step_ascii started ascii, decode]
  | cons first rest inductionHypothesis =>
      simp only [List.cons_append, decodeFrom, inductionHypothesis,
        List.append_assoc]

theorem decode_append_ascii
    (leading trailing : List UInt8)
    {byte : UInt8}
    (ascii : byte.toNat ≤ 0x7F) :
    decode (leading ++ byte :: trailing) =
      decode leading ++ Char.ofNat byte.toNat :: decode trailing :=
  decodeFrom_append_ascii none leading trailing ascii

/-- A byte completes a character or leaves a sequence started. -/
theorem step_produces
    (state : Option Started)
    (byte : Nat) :
    (step state byte).1 ≠ [] ∨ (step state byte).2.isSome := by
  cases state with
  | none =>
      simp only [step, lead]
      repeat' split
      all_goals simp
  | some started =>
      simp only [step]
      split
      · split <;> simp
      · simp

/-- What is started is decoded at least to the replacement character. -/
theorem decodeFrom_started
    (started : Started)
    (bytes : List UInt8) :
    decodeFrom (some started) bytes ≠ [] := by
  induction bytes generalizing started with
  | nil =>
      simp [decodeFrom]
  | cons byte rest inductionHypothesis =>
      simp only [decodeFrom, ne_eq, List.append_eq_nil_iff, not_and]
      intro nothing
      rcases step_produces (some started) byte.toNat with some | begun
      · exact absurd nothing some
      · obtain ⟨next, shape⟩ := Option.isSome_iff_exists.mp begun
        rw [shape]
        exact inductionHypothesis next

/-- Only the empty text is decoded to the empty text. -/
theorem decode_eq_nil
    {bytes : List UInt8} :
    decode bytes = [] ↔ bytes = [] := by
  constructor
  · intro nothing
    cases bytes with
    | nil => rfl
    | cons byte rest =>
        simp only [decode, decodeFrom, List.append_eq_nil_iff] at nothing
        rcases step_produces none byte.toNat with some | begun
        · exact absurd nothing.1 some
        · obtain ⟨next, shape⟩ := Option.isSome_iff_exists.mp begun
          rw [shape] at nothing
          exact absurd nothing.2 (decodeFrom_started next rest)
  · rintro rfl
    rfl

section Ascii

variable {char : Char}

theorem toNat_ofNat
    {codePoint : Nat}
    (valid : codePoint.isValidChar) :
    (Char.ofNat codePoint).toNat = codePoint := by
  rw [Char.ofNat, dif_pos valid]
  rfl

theorem ofNat_eq
    {codePoint : Nat}
    (notNul : char ≠ '\x00')
    (same : Char.ofNat codePoint = char) :
    codePoint = char.toNat := by
  by_cases valid : codePoint.isValidChar
  · rw [← same, toNat_ofNat valid]
  · rw [Char.ofNat, dif_neg valid] at same
    exact absurd same.symm notNul

theorem replacement_ne
    (ascii : char.toNat ≤ 0x7F) :
    char ≠ replacement := by
  rintro rfl
  exact absurd ascii (by decide)

/-- A byte starts no character of ASCII but its own. -/
theorem eq_of_mem_lead
    {byte : Nat}
    (notNul : char ≠ '\x00')
    (ascii : char.toNat ≤ 0x7F)
    (member : char ∈ (lead byte).1) :
    byte = char.toNat := by
  by_cases own : byte ≤ 0x7F
  · rw [lead_ascii own] at member
    exact ofNat_eq notNul (List.mem_singleton.mp member).symm
  · have nothingElse :
        (lead byte).1 = [] ∨ (lead byte).1 = [replacement] := by
      simp only [lead, own, if_false]
      repeat' split
      all_goals simp
    rcases nothingElse with nothing | replaced
    · rw [nothing] at member
      cases member
    · rw [replaced] at member
      exact absurd (List.mem_singleton.mp member) (replacement_ne ascii)

/-- A byte completes no character of ASCII but its own. -/
theorem eq_of_mem_step
    {state : Option Started}
    {byte : Nat}
    (notNul : char ≠ '\x00')
    (ascii : char.toNat ≤ 0x7F)
    (member : char ∈ (step state byte).1) :
    byte = char.toNat := by
  cases state with
  | none =>
      exact eq_of_mem_lead notNul ascii member
  | some started =>
      simp only [step] at member
      split at member
      · rename_i inRange
        split at member
        · rename_i last
          -- The completed code point lies beyond ASCII.
          have completed :=
            ofNat_eq notNul (List.mem_singleton.mp member).symm
          have large := started.large
          have lower_ge := started.lower_ge
          have upper_le := started.upper_le
          rw [last, Nat.pow_zero, Nat.mul_one] at large
          omega
        · cases member
      · rcases List.mem_cons.mp member with replaced | started
        · exact absurd replaced (replacement_ne ascii)
        · exact eq_of_mem_lead notNul ascii started

/-- Every decoded character of ASCII was a byte. -/
theorem mem_of_mem_decodeFrom
    {state : Option Started}
    {bytes : List UInt8}
    (notNul : char ≠ '\x00')
    (ascii : char.toNat ≤ 0x7F)
    (member : char ∈ decodeFrom state bytes) :
    ∃ byte ∈ bytes, byte.toNat = char.toNat := by
  induction bytes generalizing state with
  | nil =>
      cases state with
      | none =>
          cases member
      | some started =>
          exact absurd (List.mem_singleton.mp member) (replacement_ne ascii)
  | cons byte rest inductionHypothesis =>
      simp only [decodeFrom] at member
      rcases List.mem_append.mp member with own | later
      · exact ⟨byte, .head _, eq_of_mem_step notNul ascii own⟩
      · obtain ⟨found, foundMember, same⟩ := inductionHypothesis later
        exact ⟨found, .tail _ foundMember, same⟩

/-- Splitting and decoding commute at a separator of ASCII. -/
theorem decode_splitOn
    {separator : UInt8}
    (notNul : separator.toNat ≠ 0)
    (ascii : separator.toNat ≤ 0x7F)
    (bytes : List UInt8) :
    (decode bytes).splitOn (Char.ofNat separator.toNat) =
      (bytes.splitOn separator).map decode := by
  induction size : bytes.length using Nat.strong_induction_on
    generalizing bytes with
  | _ length inductionHypothesis =>
      by_cases cut : separator ∈ bytes
      · obtain ⟨leading, trailing, rfl⟩ := List.append_of_mem cut
        rw [List.length_append, List.length_cons] at size
        rw [decode_append_ascii leading trailing ascii,
          List.splitOn_append_cons_self, List.splitOn_append_cons_self,
          List.map_append,
          inductionHypothesis _ (by omega) leading rfl,
          inductionHypothesis _ (by omega) trailing rfl]
      · rw [List.splitOn_eq_singleton cut, List.splitOn_eq_singleton,
          List.map_singleton]
        intro member
        have same : (Char.ofNat separator.toNat).toNat = separator.toNat :=
          toNat_ofNat (.inl (by omega))
        obtain ⟨byte, byteMember, sameByte⟩ :=
          mem_of_mem_decodeFrom
            (fun isNul => notNul (by rw [← same, isNul]; rfl))
            (by rw [same]; exact ascii) member
        have isSeparator : byte = separator :=
          UInt8.toNat_inj.mp (sameByte.trans same)
        exact cut (isSeparator ▸ byteMember)

end Ascii

end Prescott.Utf8
