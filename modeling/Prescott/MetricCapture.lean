import Prescott.DockerSizes
import Prescott.EscapeCodes
import Mathlib.Data.List.DropRight

namespace Prescott

/-!
# Capturing container metrics

`DockerEnvHandle` reads what `docker stats` writes chunk by chunk.  A chunk is
cleaned, trimmed and split into rows by itself, and an end-of-metrics row ends
the capture.
-/

/-- How a capture ends: with the stream, before it, or by an error. -/
inductive CaptureEnding where
  | exhausted
  | returned
  | threw (error : AppError)
  deriving DecidableEq

/-- What a consumer of the metrics sees. -/
structure MetricCapture where
  yielded : List CapturedMetric
  ending : CaptureEnding
  deriving DecidableEq

/-- An entry is yielded before what is captured later. -/
def MetricCapture.after (entry : CapturedMetric) (later : MetricCapture) : MetricCapture where
  yielded := entry :: later.yielded
  ending := later.ending

namespace DockerEnvHandle

/-- The row of a container that has stopped: no PID count, or none left. -/
def isEndOfMetrics (rawMetric : List (List Char)) : Bool :=
  rawMetric[0]? == some "--".toList || rawMetric[0]? == some "0".toList

/-- The loop over the parts of a chunk; `now` is the clock and `reads` how often it was read. -/
def captureParts
    (now : Nat → Int)
    (next : Nat → MetricCapture) :
    Nat → List (List Char) → MetricCapture
  | reads, [] => next reads
  | reads, cleanPart :: cleanParts =>
      if cleanPart = [] then
        captureParts now next reads cleanParts
      else
        let timestamp := now reads
        let rawMetric := cleanPart.splitOn '\t'
        if isEndOfMetrics rawMetric then
          ⟨[], .returned⟩
        else
          match formatRawMetric rawMetric timestamp with
          | .ok entry =>
              (captureParts now next (reads + 1) cleanParts).after entry
          | .error error => ⟨[], .threw error⟩

/-- The loop over the chunks of the stream. -/
def captureChunks (now : Nat → Int) : Nat → List (List Char) → MetricCapture
  | _, [] => ⟨[], .exhausted⟩
  | reads, stdout :: rest =>
      let cleanStdout := JsNumber.trim (removeEscapeCharacters stdout)
      if cleanStdout = [] then
        captureChunks now reads rest
      else
        captureParts now (fun reads => captureChunks now reads rest) reads
          (cleanStdout.splitOn '\n')

/-- Without a stream there are no metrics. -/
def metricsContinuous
    (now : Nat → Int)
    (stdout : Option (List (List Char))) :
    MetricCapture :=
  match stdout with
  | none => ⟨[], .returned⟩
  | some chunks => captureChunks now 0 chunks

end DockerEnvHandle

/-- A visible character of ASCII: from `!` to `~`. -/
def isPrinted (char : Char) : Bool :=
  0x21 ≤ char.toNat && char.toNat ≤ 0x7E

/-- A line of `docker stats`; a stopped container has no PID count. -/
structure MetricLine where
  pids : Option Nat
  mem : List Char
  limit : List Char
  cpu : List Char
  printed : ∀ char ∈ mem ++ limit ++ cpu, isPrinted char = true
  noSlash : '/' ∉ mem

namespace MetricLine

/-- The PID count as it is printed. -/
def pidsText (line : MetricLine) : List Char :=
  match line.pids with
  | none => "--".toList
  | some pids => Nat.toDigits 10 pids

/-- The used memory and its limit. -/
def memUsage (line : MetricLine) : List Char :=
  line.mem ++ ' ' :: '/' :: ' ' :: line.limit

/-- `<pids>\t<mem> / <limit>\t<cpu>%` -/
def text (line : MetricLine) : List Char :=
  line.pidsText ++ '\t' :: (line.memUsage ++ '\t' :: (line.cpu ++ ['%']))

/-- The container has ended. -/
def isEnd (line : MetricLine) : Bool :=
  line.pids == none || line.pids == some 0

/-- The RAM and the CPU of the line. -/
def values (line : MetricLine) : JsNumber × List Char :=
  ((dockerSizeToBytes line.mem).toFixed 2, line.cpu)

end MetricLine

/-- The lines, each ended by a newline. -/
def statsText (lines : List MetricLine) : List Char :=
  lines.flatMap fun line => line.text ++ ['\n']

/-- The values of the lines before the first end are yielded, and the capture stops there. -/
def MetricCapture.Shows
    (captured : MetricCapture)
    (lines : List MetricLine) :
    Prop :=
  captured.yielded.map (fun entry => (entry.ram, entry.cpu)) =
      (lines.takeWhile fun line => !line.isEnd).map MetricLine.values ∧
    captured.ending = if lines.any MetricLine.isEnd then .returned else .exhausted

/-- All of some lines is shown, the last newline perhaps excepted. -/
def StandsBetween (lines : List MetricLine) (shown : List Char) : Prop :=
  ∃ seen, seen <+: lines ∧
    (shown = statsText seen ∨ shown ++ ['\n'] = statsText seen)

/-- The PID count of a line is shown, and a tab behind it if anything is. -/
def MetricLine.ShowsPids (line : MetricLine) (begun : List Char) : Prop :=
  begun = line.pidsText ∨ line.pidsText ++ ['\t'] <+: begun

/-- The PID count of the first end is shown. -/
def ShowsEnd (lines : List MetricLine) (shown : List Char) : Prop :=
  ∃ before line after begun,
    lines = before ++ line :: after ∧
      (∀ earlier ∈ before, earlier.isEnd = false) ∧
      line.isEnd = true ∧
      shown = statsText before ++ begun ∧
      line.ShowsPids begun

/-- Until the end is shown, the chunks are cut at the ends of lines. -/
def CutAtLines (lines : List MetricLine) : List Char → List (List Char) → Prop
  | _, [] => True
  | read, chunk :: rest =>
      let shown := removeEscapeCharacters (read ++ chunk)
      ShowsEnd lines shown ∨
        StandsBetween lines shown ∧ CutAtLines lines (read ++ chunk) rest

/-! ## The parts of a chunk -/

/-- The parts that are not skipped. -/
def filledParts (text : List Char) : List (List Char) :=
  (text.splitOn '\n').filter fun part => !part.isEmpty

/-- `trimEnd` -/
def trimEnd (text : List Char) : List Char :=
  text.rdropWhile JsNumber.isWhiteSpace

section Parts

variable {text left right row : List Char}

@[simp] theorem filledParts_nil : filledParts [] = [] :=
  rfl

theorem filledParts_append_newline
    (left right : List Char) :
    filledParts (left ++ '\n' :: right) = filledParts left ++ filledParts right := by
  rw [filledParts, List.splitOn_append_cons_self, List.filter_append]
  rfl

theorem filledParts_of_notMem
    (nonempty : text ≠ [])
    (oneLine : '\n' ∉ text) :
    filledParts text = [text] := by
  rw [filledParts, List.splitOn_eq_singleton oneLine]
  simp [nonempty]

theorem trim_eq (text : List Char) : JsNumber.trim text = trimEnd (JsNumber.trimStart text) :=
  rfl

theorem trimEnd_append
    (left right : List Char) :
    trimEnd (left ++ right) =
      if trimEnd right = [] then
        trimEnd left
      else
        left ++ trimEnd right := by
  simp only [trimEnd, List.rdropWhile, List.reverse_append, List.dropWhile_append,
    List.reverse_eq_nil_iff, List.isEmpty_iff]
  split <;> simp

theorem trimEnd_concat
    {last : Char}
    (visible : JsNumber.isWhiteSpace last = false)
    (front : List Char) :
    trimEnd (front ++ [last]) = front ++ [last] :=
  List.rdropWhile_concat_neg _ _ _ (by simp [visible])

theorem trimEnd_cons
    {first : Char}
    (visible : JsNumber.isWhiteSpace first = false)
    (rest : List Char) :
    trimEnd (first :: rest) = first :: trimEnd rest := by
  have ended := trimEnd_append [first] rest
  rw [show trimEnd [first] = [first] from trimEnd_concat visible []] at ended
  rw [← List.singleton_append, ended]
  split
  next none => rw [none]
  next => rfl

theorem trimEnd_subset : trimEnd text ⊆ text :=
  (List.rdropWhile_prefix _ _).subset

theorem trimStart_cons
    {first : Char}
    (visible : JsNumber.isWhiteSpace first = false)
    (rest : List Char) :
    JsNumber.trimStart (first :: rest) = first :: rest :=
  List.dropWhile_cons_of_neg (by simp [visible])

theorem trimEnd_of_visible
    (visible : ∀ char ∈ text, JsNumber.isWhiteSpace char = false) :
    trimEnd text = text := by
  rcases List.eq_nil_or_concat text with rfl | ⟨front, last, rfl⟩
  · rfl
  · rw [List.concat_eq_append] at visible ⊢
    exact trimEnd_concat (visible last (by simp)) front

/-- A row that ends visibly is a part of its own. -/
theorem filledParts_trimEnd_row
    {last : Char}
    {front : List Char}
    (visible : JsNumber.isWhiteSpace last = false)
    (oneLine : '\n' ∉ front ++ [last])
    (rest : List Char) :
    filledParts (trimEnd ((front ++ [last]) ++ '\n' :: rest)) =
      (front ++ [last]) :: filledParts (trimEnd rest) := by
  have isRow : filledParts (front ++ [last]) = [front ++ [last]] :=
    filledParts_of_notMem (by simp) oneLine
  have ended : trimEnd ('\n' :: rest) =
      if trimEnd rest = [] then [] else '\n' :: trimEnd rest :=
    trimEnd_append ['\n'] rest
  rw [trimEnd_append, ended]
  by_cases none : trimEnd rest = []
  · rw [if_pos none, if_pos rfl, trimEnd_concat visible, isRow, none, filledParts_nil]
  · rw [if_neg none, if_neg (List.cons_ne_nil _ _), filledParts_append_newline, isRow]
    rfl

end Parts

namespace DockerEnvHandle

variable {now : Nat → Int}
variable {next : Nat → MetricCapture}

theorem captureParts_filter
    (reads : Nat)
    (parts : List (List Char)) :
    captureParts now next reads (parts.filter fun part => !part.isEmpty) =
      captureParts now next reads parts := by
  induction parts generalizing reads with
  | nil => rfl
  | cons part others inductionHypothesis =>
      by_cases isEmpty : part = []
      · subst isEmpty
        exact inductionHypothesis reads
      · rw [List.filter_cons_of_pos (by simpa using isEmpty)]
        simp only [captureParts, if_neg isEmpty, inductionHypothesis]

/-- A chunk is read by its parts. -/
theorem captureChunks_cons
    (reads : Nat)
    (chunk : List Char)
    (rest : List (List Char)) :
    captureChunks now reads (chunk :: rest) =
      captureParts now (fun reads => captureChunks now reads rest) reads
        (filledParts (JsNumber.trim (removeEscapeCharacters chunk))) := by
  rw [filledParts, captureParts_filter, captureChunks]
  split
  next isEmpty =>
    rw [isEmpty]
    rfl
  next => rfl

end DockerEnvHandle

/-! ## Lines -/

section Printed

variable {char : Char}

/-- What is printed is visible, and it is no separator and no escape character. -/
theorem isWhiteSpace_of_isPrinted
    (printed : isPrinted char = true) :
    JsNumber.isWhiteSpace char = false := by
  simp only [isPrinted, Bool.and_eq_true, decide_eq_true_eq] at printed
  simp only [JsNumber.isWhiteSpace, Bool.or_eq_false_iff, Bool.and_eq_false_iff,
    decide_eq_false_iff_not, beq_eq_false_iff_ne]
  omega

theorem ne_of_isPrinted
    (printed : isPrinted char = true) :
    char ≠ '\t' ∧ char ≠ '\n' ∧ char ≠ escape := by
  refine ⟨?_, ?_, ?_⟩ <;> rintro rfl <;> cases printed

theorem isPrinted_of_isDigit
    (digit : char.isDigit = true) :
    isPrinted char = true := by
  simp only [Char.isDigit, Bool.and_eq_true, decide_eq_true_eq, ge_iff_le,
    UInt32.le_iff_toNat_le] at digit
  simp only [isPrinted, Bool.and_eq_true, decide_eq_true_eq, Char.toNat]
  change 48 ≤ char.val.toNat ∧ char.val.toNat ≤ 57 at digit
  omega

theorem isPrinted_of_isCommand
    (command : isCommand char = true) :
    isPrinted char = true := by
  simp only [isCommand, Bool.or_eq_true, beq_iff_eq] at command
  rcases command with (rfl | rfl) | rfl <;> rfl

end Printed

namespace MetricLine

variable (line : MetricLine)

theorem isPrinted_pidsText : ∀ char ∈ line.pidsText, isPrinted char = true := by
  intro char member
  unfold pidsText at member
  split at member
  · exact List.all_eq_true.mp (show "--".toList.all isPrinted = true by decide) char member
  · exact isPrinted_of_isDigit (JsNumber.isDigit_of_mem_toDigits char member)

theorem pidsText_ne_nil : line.pidsText ≠ [] := by
  unfold pidsText
  split
  · decide
  · exact Nat.toDigits_ne_nil

theorem isPrinted_cpu : ∀ char ∈ line.cpu ++ ['%'], isPrinted char = true := by
  intro char member
  rcases List.mem_append.mp member with inCpu | isPercent
  · exact line.printed char (List.mem_append_right _ inCpu)
  · obtain rfl := List.mem_singleton.mp isPercent
    rfl

theorem notMem_memUsage
    {char : Char}
    (notPrinted : isPrinted char = false)
    (notSpace : char ≠ ' ') :
    char ∉ line.memUsage := by
  intro member
  have isPrinted := line.printed char
  simp only [memUsage, List.mem_append, List.mem_cons] at member isPrinted
  rcases member with inMem | isSpace | isSlash | isSpace | inLimit
  · rw [isPrinted (.inl (.inl inMem))] at notPrinted
    cases notPrinted
  · exact notSpace isSpace
  · subst isSlash
    cases notPrinted
  · exact notSpace isSpace
  · rw [isPrinted (.inl (.inr inLimit))] at notPrinted
    cases notPrinted

theorem notMem_text
    {char : Char}
    (notPrinted : isPrinted char = false)
    (notSpace : char ≠ ' ')
    (notTab : char ≠ '\t') :
    char ∉ line.text := by
  have apart {text : List Char} (printed : ∀ char ∈ text, isPrinted char = true) :
      char ∉ text := by
    intro member
    rw [printed char member] at notPrinted
    cases notPrinted
  intro member
  rcases List.mem_append.mp member with inPids | afterPids
  · exact apart line.isPrinted_pidsText inPids
  rcases List.mem_cons.mp afterPids with isTab | afterTab
  · exact notTab isTab
  rcases List.mem_append.mp afterTab with inMemUsage | afterMemUsage
  · exact line.notMem_memUsage notPrinted notSpace inMemUsage
  rcases List.mem_cons.mp afterMemUsage with isTab | inCpu
  · exact notTab isTab
  · exact apart line.isPrinted_cpu inCpu

variable {line}

/-- A row is the end by its PID count. -/
theorem isEndOfMetrics_pidsText
    (fields : List (List Char)) :
    DockerEnvHandle.isEndOfMetrics (line.pidsText :: fields) = line.isEnd := by
  rw [Bool.eq_iff_iff]
  simp only [DockerEnvHandle.isEndOfMetrics, List.getElem?_cons_zero, Bool.or_eq_true,
    beq_iff_eq, Option.some.injEq, isEnd, pidsText]
  cases line.pids with
  | none => simp
  | some pids =>
      have noDash : Nat.toDigits 10 pids ≠ ['-', '-'] := by
        intro same
        have member : '-' ∈ Nat.toDigits 10 pids := by simp [same]
        cases JsNumber.isDigit_of_mem_toDigits '-' member
      have isZero : Nat.toDigits 10 pids = ['0'] ↔ pids = 0 :=
        ⟨fun same => JsNumber.eq_zero_of_toDigits same, by rintro rfl; rfl⟩
      simp [noDash, isZero]

/-- The beginning of a PID count is only taken for the end when it is one. -/
theorem isEnd_of_beginning
    {shown hidden : List Char}
    (begins : line.pidsText = shown ++ hidden)
    (taken : shown = "--".toList ∨ shown = "0".toList) :
    line.isEnd = true ∧ hidden = [] := by
  unfold pidsText at begins
  cases pids : line.pids with
  | none =>
      rw [pids] at begins
      rcases taken with rfl | rfl
      · exact ⟨by simp [isEnd, pids], by simpa using begins⟩
      · cases (List.cons.inj begins).1
  | some count =>
      rw [pids] at begins
      rcases taken with rfl | rfl
      · have member : '-' ∈ Nat.toDigits 10 count := by simp [begins]
        cases JsNumber.isDigit_of_mem_toDigits '-' member
      · obtain rfl := JsNumber.eq_zero_of_toDigits begins
        exact ⟨by simp [isEnd, pids], by simpa using begins.symm⟩

end MetricLine

section StatsText

variable {line : MetricLine}
variable {lines before after : List MetricLine}

@[simp] theorem statsText_nil : statsText [] = [] :=
  rfl

theorem statsText_cons
    (line : MetricLine)
    (lines : List MetricLine) :
    statsText (line :: lines) = line.text ++ '\n' :: statsText lines := by
  simp [statsText]

theorem statsText_append
    (before after : List MetricLine) :
    statsText (before ++ after) = statsText before ++ statsText after :=
  List.flatMap_append

theorem escape_notMem_statsText : escape ∉ statsText lines := by
  intro member
  obtain ⟨line, _, inLine⟩ := List.mem_flatMap.mp member
  rcases List.mem_append.mp inLine with inText | isNewline
  · exact line.notMem_text rfl (by decide) (by decide) inText
  · cases List.mem_singleton.mp isNewline

theorem newline_notMem_text : '\n' ∉ line.text :=
  line.notMem_text rfl (by decide) (by decide)

theorem newline_notMem_begun
    {begun hidden : List Char}
    (text : line.text = begun ++ hidden) :
    '\n' ∉ begun :=
  fun member => newline_notMem_text (text ▸ List.mem_append_left hidden member)

theorem count_statsText : (statsText lines).count '\n' = lines.length := by
  induction lines with
  | nil => rfl
  | cons line others inductionHypothesis =>
      rw [statsText_cons, List.count_append, List.count_cons_self, inductionHypothesis,
        List.count_eq_zero_of_not_mem newline_notMem_text, Nat.zero_add,
        List.length_cons]

variable {seen todo : List MetricLine}
variable {begun : List Char}

/-- What is shown behind some running lines shows the end exactly if it begins with one. -/
theorem showsEnd_iff
    (running : ∀ line ∈ seen, line.isEnd = false)
    (oneLine : '\n' ∉ begun) :
    ShowsEnd (seen ++ todo) (statsText seen ++ begun) ↔
      ∃ line after, todo = line :: after ∧ line.isEnd = true ∧ line.ShowsPids begun := by
  constructor
  · rintro ⟨before, line, after, other, whole, _, isEnd, shown, pids⟩
    -- the newlines count the lines that are shown
    have counted := congrArg (List.count '\n') shown
    simp only [List.count_append, count_statsText, List.count_eq_zero_of_not_mem oneLine]
      at counted
    rcases List.append_eq_append_iff.mp whole with
        ⟨further, rfl, rest⟩ | ⟨further, rfl, rest⟩
    · rw [List.length_append] at counted
      obtain rfl : further = [] := List.eq_nil_of_length_eq_zero (by omega)
      rw [List.append_nil] at shown
      obtain rfl := List.append_cancel_left shown
      exact ⟨line, after, rest, isEnd, pids⟩
    · cases further with
      | nil =>
          rw [List.append_nil] at shown
          obtain rfl := List.append_cancel_left shown
          exact ⟨line, after, rest.symm, isEnd, pids⟩
      | cons first others =>
          obtain rfl := (List.cons.inj rest).1
          rw [running line (by simp)] at isEnd
          cases isEnd
  · rintro ⟨line, after, rfl, isEnd, pids⟩
    exact ⟨seen, line, after, begun, rfl, running, isEnd, rfl, pids⟩

theorem standsBetween_iff
    (oneLine : '\n' ∉ begun) :
    StandsBetween (seen ++ todo) (statsText seen ++ begun) ↔
      begun = [] ∨ ∃ line after, todo = line :: after ∧ begun = line.text := by
  constructor
  · rintro ⟨other, isPrefix, shown | shown⟩
    all_goals
      have counted := congrArg (List.count '\n') shown
      simp only [List.count_append, count_statsText, List.count_eq_zero_of_not_mem oneLine,
        List.count_singleton_self] at counted
      obtain ⟨further, rfl⟩ : seen <+: other :=
        List.prefix_of_prefix_length_le (List.prefix_append seen todo) isPrefix (by omega)
      rw [List.length_append] at counted
      rw [statsText_append] at shown
    · obtain rfl : further = [] := List.eq_nil_of_length_eq_zero (by omega)
      exact .inl (List.append_cancel_left shown)
    · obtain ⟨line, rfl⟩ : ∃ line, further = [line] :=
        List.length_eq_one_iff.mp (by omega)
      obtain ⟨after, rfl⟩ := (List.prefix_append_right_inj seen).mp isPrefix
      rw [List.append_assoc] at shown
      have same : begun ++ ['\n'] = line.text ++ ['\n'] := by
        simpa [statsText_cons] using List.append_cancel_left shown
      exact .inr ⟨line, after, rfl, List.append_cancel_right same⟩
  · rintro (rfl | ⟨line, after, rfl, rfl⟩)
    · exact ⟨seen, List.prefix_append _ _, .inl (List.append_nil _)⟩
    · refine ⟨seen ++ [line], ⟨after, by simp⟩, .inr ?_⟩
      simp [statsText_append, statsText_cons]

end StatsText

end Prescott
