import Prescott.Utf8Decoding

namespace Prescott.Utf8

/-!
# Encoding UTF-8

The bytes of a text are decoded to the text again: a character of two to four
bytes starts one sequence, which its last byte completes.
-/

/-- The bytes of a text. -/
def encode (text : List Char) : List UInt8 :=
  text.flatMap String.utf8EncodeChar

section Sequences

variable {started : Started}
variable {bits : Nat}

theorem toNat_byte
    {byte : Nat}
    (isByte : byte < 256) :
    (UInt8.ofNat byte).toNat = byte := by
  simp [Nat.mod_eq_of_lt isByte]

/-- A byte that a sequence needs no further byte after completes it. -/
theorem decodeFrom_last
    (isLast : started.more = 0)
    (isBits : bits < 64)
    (lower : started.lower ≤ bits + 0x80)
    (upper : bits + 0x80 ≤ started.upper)
    (rest : List UInt8) :
    decodeFrom (some started) (UInt8.ofNat (bits + 0x80) :: rest) =
      Char.ofNat (started.codePoint * 64 + bits) :: decodeFrom none rest := by
  have lowBits : (bits + 0x80) % 64 = bits := by omega
  have stepped :
      step (some started) (bits + 0x80) =
        ([Char.ofNat (started.codePoint * 64 + bits)], none) := by
    simp only [step, dif_pos (And.intro lower upper), lowBits]
    split
    next => rfl
    next more continues =>
      rw [isLast] at continues
      cases continues
  rw [decodeFrom, toNat_byte (by omega), stepped]
  rfl

/-- A byte that a sequence needs further bytes after is added to it. -/
theorem decodeFrom_next
    {more : Nat}
    (isMore : started.more = more + 1)
    (isBits : bits < 64)
    (lower : started.lower ≤ bits + 0x80)
    (upper : bits + 0x80 ≤ started.upper) :
    ∃ next : Started,
      next.codePoint = started.codePoint * 64 + bits ∧ next.lower = 0x80 ∧
        next.upper = 0xBF ∧ next.more = more ∧
          ∀ rest,
            decodeFrom (some started) (UInt8.ofNat (bits + 0x80) :: rest) =
              decodeFrom (some next) rest := by
  have lowBits : (bits + 0x80) % 64 = bits := by omega
  refine ⟨started.extend (bits + 0x80) more isMore ⟨lower, upper⟩,
    congrArg (started.codePoint * 64 + ·) lowBits, rfl, rfl, rfl, fun rest => ?_⟩
  have stepped :
      step (some started) (bits + 0x80) =
        ([], some (started.extend (bits + 0x80) more isMore ⟨lower, upper⟩)) := by
    simp only [step, dif_pos (And.intro lower upper)]
    split
    next continues =>
      rw [isMore] at continues
      cases continues
    next others continues =>
      obtain rfl : others = more := Nat.succ.inj (continues.symm.trans isMore)
      rfl
  rw [decodeFrom, toNat_byte (by omega), stepped]
  rfl

end Sequences

section Characters

variable {codePoint : Nat}

/-- What the first byte of a character has to start. -/
structure Starts (byte high next more : Nat) (started : Started) : Prop where
  leads : lead byte = ([], some started)
  codePoint : started.codePoint = high
  lower : started.lower ≤ next + 0x80
  upper : next + 0x80 ≤ started.upper
  more : started.more = more

theorem decodeFrom_first
    {byte high next more : Nat}
    {started : Started}
    (starts : Starts byte high next more started)
    (isByte : byte < 256)
    (rest : List UInt8) :
    decodeFrom none (UInt8.ofNat byte :: rest) = decodeFrom (some started) rest := by
  rw [decodeFrom, toNat_byte isByte, step, starts.leads]
  rfl

theorem starts_two
    (lower : 0x80 ≤ codePoint)
    (upper : codePoint ≤ 0x7FF) :
    ∃ started, Starts (codePoint / 64 + 0xC0) (codePoint / 64) (codePoint % 64) 0 started := by
  have leads :
      lead (codePoint / 64 + 0xC0) =
        ([], some ⟨(codePoint / 64 + 0xC0) % 32, 0x80, 0xBF, 0, by omega, by omega,
          by omega⟩) := by
    unfold lead
    rw [if_neg (by omega), dif_pos (by omega)]
  exact ⟨_, leads, by dsimp only; omega, by dsimp only; omega, by dsimp only; omega, rfl⟩

/-- The halves of surrogate pairs are no characters. -/
theorem starts_three
    (lower : 0x800 ≤ codePoint)
    (upper : codePoint ≤ 0xFFFF)
    (valid : codePoint.isValidChar) :
    ∃ started,
      Starts (codePoint / 4096 + 0xE0) (codePoint / 4096) (codePoint / 64 % 64) 1 started := by
  have notSurrogate : codePoint < 0xD800 ∨ 0xDFFF < codePoint := by
    rcases valid with low | high
    · exact .inl low
    · exact .inr high.1
  by_cases isFirst : codePoint / 4096 = 0
  · have leads :
        lead (codePoint / 4096 + 0xE0) =
          ([], some ⟨0, 0xA0, 0xBF, 1, by omega, by omega, by omega⟩) := by
      unfold lead
      rw [if_neg (by omega), dif_neg (by omega), if_pos (by omega)]
    exact ⟨_, leads, by dsimp only; omega, by dsimp only; omega, by dsimp only; omega, rfl⟩
  by_cases besideSurrogates : codePoint / 4096 = 0xD
  · have leads :
        lead (codePoint / 4096 + 0xE0) =
          ([], some ⟨0xD, 0x80, 0x9F, 1, by omega, by omega, by omega⟩) := by
      unfold lead
      rw [if_neg (by omega), dif_neg (by omega), if_neg (by omega), if_pos (by omega)]
    exact ⟨_, leads, by dsimp only; omega, by dsimp only; omega, by dsimp only; omega, rfl⟩
  · have leads :
        lead (codePoint / 4096 + 0xE0) =
          ([], some ⟨(codePoint / 4096 + 0xE0) % 16, 0x80, 0xBF, 1, by omega, by omega,
            by omega⟩) := by
      unfold lead
      rw [if_neg (by omega), dif_neg (by omega), if_neg (by omega), if_neg (by omega),
        dif_pos (by omega)]
    exact ⟨_, leads, by dsimp only; omega, by dsimp only; omega, by dsimp only; omega, rfl⟩

theorem starts_four
    (lower : 0x10000 ≤ codePoint)
    (upper : codePoint < 0x110000) :
    ∃ started,
      Starts (codePoint / 262144 + 0xF0) (codePoint / 262144) (codePoint / 4096 % 64) 2
        started := by
  by_cases isFirst : codePoint / 262144 = 0
  · have leads :
        lead (codePoint / 262144 + 0xF0) =
          ([], some ⟨0, 0x90, 0xBF, 2, by omega, by omega, by omega⟩) := by
      unfold lead
      rw [if_neg (by omega), dif_neg (by omega), if_neg (by omega), if_neg (by omega),
        dif_neg (by omega), if_pos (by omega)]
    exact ⟨_, leads, by dsimp only; omega, by dsimp only; omega, by dsimp only; omega, rfl⟩
  by_cases isLast : codePoint / 262144 = 4
  · have leads :
        lead (codePoint / 262144 + 0xF0) =
          ([], some ⟨4, 0x80, 0x8F, 2, by omega, by omega, by omega⟩) := by
      unfold lead
      rw [if_neg (by omega), dif_neg (by omega), if_neg (by omega), if_neg (by omega),
        dif_neg (by omega), if_neg (by omega), if_pos (by omega)]
    exact ⟨_, leads, by dsimp only; omega, by dsimp only; omega, by dsimp only; omega, rfl⟩
  · have leads :
        lead (codePoint / 262144 + 0xF0) =
          ([], some ⟨(codePoint / 262144 + 0xF0) % 8, 0x80, 0xBF, 2, by omega, by omega,
            by omega⟩) := by
      unfold lead
      rw [if_neg (by omega), dif_neg (by omega), if_neg (by omega), if_neg (by omega),
        dif_neg (by omega), if_neg (by omega), if_neg (by omega), dif_pos (by omega)]
    exact ⟨_, leads, by dsimp only; omega, by dsimp only; omega, by dsimp only; omega, rfl⟩

/-- The bytes of a character are decoded to it, whatever follows. -/
theorem decodeFrom_encodeChar
    (char : Char)
    (rest : List UInt8) :
    decodeFrom none (String.utf8EncodeChar char ++ rest) = char :: decodeFrom none rest := by
  have isChar : Char.ofNat char.val.toNat = char := Char.ofNat_toNat char
  have valid : char.val.toNat.isValidChar := char.valid
  have bounded : char.val.toNat < 0x110000 := by
    rcases valid with low | high
    · omega
    · exact high.2
  unfold String.utf8EncodeChar
  generalize char.val.toNat = codePoint at isChar valid bounded
  subst isChar
  simp only
  split
  next ascii =>
    rw [List.singleton_append, decodeFrom, toNat_byte (by omega), step, lead_ascii ascii]
    rfl
  next notAscii =>
    split
    next short =>
      obtain ⟨started, starts⟩ := @starts_two codePoint (by omega) short
      have first : codePoint / 64 % 32 + 0xC0 = codePoint / 64 + 0xC0 := by omega
      simp only [List.cons_append, List.nil_append]
      rw [first, decodeFrom_first starts (by omega),
        decodeFrom_last starts.more (by omega) starts.lower starts.upper, starts.codePoint]
      congr 2
      omega
    next notShort =>
      split
      next medium =>
        obtain ⟨started, starts⟩ :=
          @starts_three codePoint (by omega) medium valid
        have first : codePoint / 4096 % 16 + 0xE0 = codePoint / 4096 + 0xE0 := by omega
        obtain ⟨next, isHigh, lower, upper, more, goesOn⟩ :=
          decodeFrom_next starts.more (by omega) starts.lower starts.upper
        simp only [List.cons_append, List.nil_append]
        rw [first, decodeFrom_first starts (by omega), goesOn,
          decodeFrom_last more (by omega) (by omega) (by omega), isHigh, starts.codePoint]
        congr 2
        omega
      next notMedium =>
        obtain ⟨started, starts⟩ := @starts_four codePoint (by omega) bounded
        have first : codePoint / 262144 % 8 + 0xF0 = codePoint / 262144 + 0xF0 := by omega
        obtain ⟨second, secondHigh, secondLower, secondUpper, secondMore, secondGoesOn⟩ :=
          decodeFrom_next starts.more (by omega) starts.lower starts.upper
        obtain ⟨third, thirdHigh, thirdLower, thirdUpper, thirdMore, thirdGoesOn⟩ :=
          @decodeFrom_next second (codePoint / 64 % 64) 0 secondMore (by omega) (by omega)
            (by omega)
        simp only [List.cons_append, List.nil_append]
        rw [first, decodeFrom_first starts (by omega), secondGoesOn, thirdGoesOn,
          decodeFrom_last thirdMore (by omega) (by omega) (by omega), thirdHigh, secondHigh,
          starts.codePoint]
        congr 2
        omega

/-- Decoding takes encoding back. -/
theorem decode_encode
    (text : List Char) :
    decode (encode text) = text := by
  rw [decode]
  induction text with
  | nil => rfl
  | cons char text inductionHypothesis =>
      rw [encode, List.flatMap_cons, decodeFrom_encodeChar, ← encode, inductionHypothesis]

end Characters

end Prescott.Utf8
