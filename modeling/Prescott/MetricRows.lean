import Prescott.MetricCapture

namespace Prescott

/-!
# Rows of captured metrics

What becomes of a row in a chunk that was cut: a whole row gives its entry, and
of one that is cut only some beginnings are read as they should be.
-/

/-! ## Whole rows -/

namespace MetricCapture

variable {captured : MetricCapture}
variable {entry : CapturedMetric}
variable {line : MetricLine}
variable {lines : List MetricLine}

theorem shows_after
    (running : line.isEnd = false) :
    (captured.after entry).Shows (line :: lines) ↔
      (entry.ram, entry.cpu) = line.values ∧ captured.Shows lines := by
  simp [Shows, after, running, and_assoc]

theorem shows_returned
    (isEnd : line.isEnd = true)
    (lines : List MetricLine) :
    Shows ⟨[], .returned⟩ (line :: lines) := by
  simp [Shows, isEnd]

theorem not_shows_threw
    (error : AppError)
    (lines : List MetricLine) :
    ¬ Shows ⟨[], .threw error⟩ lines := by
  rintro ⟨_, ending⟩
  split at ending <;> cases ending

end MetricCapture

namespace DockerEnvHandle

variable {now : Nat → Int}
variable {next : Nat → MetricCapture}
variable {line : MetricLine}
variable {done todo : List MetricLine}

theorem formatRawMetric_line
    (line : MetricLine)
    (pids cpuPercentage : List Char)
    (timestamp : Int) :
    formatRawMetric [pids, line.memUsage, cpuPercentage] timestamp =
      .ok ⟨line.values.1, cpuPercentage.dropLast, timestamp⟩ :=
  formatRawMetric_row line.noSlash pids line.limit cpuPercentage timestamp

theorem splitOn_text :
    line.text.splitOn '\t' = [line.pidsText, line.memUsage, line.cpu ++ ['%']] := by
  have inPids : '\t' ∉ line.pidsText := fun member =>
    (ne_of_isPrinted (line.isPrinted_pidsText _ member)).1 rfl
  have inMemUsage : '\t' ∉ line.memUsage :=
    line.notMem_memUsage rfl (by decide)
  have inCpu : '\t' ∉ line.cpu ++ ['%'] := fun member =>
    (ne_of_isPrinted (line.isPrinted_cpu _ member)).1 rfl
  rw [MetricLine.text, List.splitOn_append_cons_self_of_not_mem inPids,
    List.splitOn_append_cons_self_of_not_mem inMemUsage,
    List.splitOn_eq_singleton inCpu]

theorem text_ne_nil : line.text ≠ [] := by
  simp [MetricLine.text]

/-- The row of a running container gives its entry. -/
theorem captureParts_running
    (running : line.isEnd = false)
    (reads : Nat)
    (parts : List (List Char)) :
    captureParts now next reads (line.text :: parts) =
      (captureParts now next (reads + 1) parts).after
        ⟨line.values.1, line.values.2, now reads⟩ := by
  rw [captureParts, if_neg text_ne_nil]
  simp only [splitOn_text, MetricLine.isEndOfMetrics_pidsText, running,
    formatRawMetric_line, List.dropLast_concat]
  rfl

theorem captureParts_end
    (isEnd : line.isEnd = true)
    (reads : Nat)
    (parts : List (List Char)) :
    captureParts now next reads (line.text :: parts) = ⟨[], .returned⟩ := by
  rw [captureParts, if_neg text_ne_nil]
  simp only [splitOn_text, MetricLine.isEndOfMetrics_pidsText, isEnd, if_true]

theorem captureParts_rows
    (running : ∀ line ∈ done, line.isEnd = false)
    (reads : Nat)
    (parts : List (List Char)) :
    (captureParts now next reads (done.map MetricLine.text ++ parts)).Shows (done ++ todo) ↔
      (captureParts now next (reads + done.length) parts).Shows todo := by
  induction done generalizing reads with
  | nil => rfl
  | cons line others inductionHypothesis =>
      have later :=
        inductionHypothesis (fun other member => running other (.tail _ member)) (reads + 1)
      have runs := running line (.head _)
      rw [List.map_cons, List.cons_append, List.cons_append, captureParts_running runs,
        MetricCapture.shows_after runs, and_iff_right rfl, later, List.length_cons,
        Nat.add_assoc, Nat.add_comm 1]

/-- The first end among the rows ends the capture. -/
theorem captureParts_ended
    (ended : ∃ line ∈ done, line.isEnd = true)
    (reads : Nat)
    (parts : List (List Char)) :
    (captureParts now next reads (done.map MetricLine.text ++ parts)).Shows
      (done ++ todo) := by
  induction done generalizing reads with
  | nil =>
      obtain ⟨_, member, _⟩ := ended
      cases member
  | cons line others inductionHypothesis =>
      rw [List.map_cons, List.cons_append, List.cons_append]
      cases ends : line.isEnd with
      | true =>
          rw [captureParts_end ends]
          exact MetricCapture.shows_returned ends _
      | false =>
          rw [captureParts_running ends, MetricCapture.shows_after ends]
          refine ⟨rfl, inductionHypothesis ?_ (reads + 1)⟩
          obtain ⟨other, member, isEnd⟩ := ended
          rcases List.mem_cons.mp member with rfl | later
          · rw [ends] at isEnd
            cases isEnd
          · exact ⟨other, later, isEnd⟩

end DockerEnvHandle

/-! ## Rows that are cut -/

/-- What a cut can leave of a code: nothing, or its beginning. -/
def IsLeftover (cut : List Char) : Prop :=
  cut = [] ∨ ∃ missing, IsCutCode cut missing

/-- What is left of a code is visible and stays in its row and its field. -/
theorem IsLeftover.visible
    {cut : List Char}
    (isLeftover : IsLeftover cut)
    {char : Char}
    (member : char ∈ cut) :
    JsNumber.isWhiteSpace char = false ∧ char ≠ '\t' ∧ char ≠ '\n' := by
  rcases isLeftover with rfl | ⟨missing, isCut⟩
  · cases member
  by_cases isEscape : char = escape
  · subst isEscape
    decide
  have printed : isPrinted char = true := by
    rcases isCut.eq_beginning with rfl | rfl | ⟨digit, isDigit, rfl⟩
    · exact absurd (List.mem_singleton.mp member) isEscape
    · have isBracket : char = '[' := by simpa [isEscape] using member
      rw [isBracket]
      rfl
    · rcases List.mem_cons.mp member with same | others
      · exact absurd same isEscape
      rcases List.mem_cons.mp others with rfl | last
      · rfl
      · rw [List.mem_singleton.mp last]
        exact isPrinted_of_isDigit isDigit
  have apart := ne_of_isPrinted printed
  exact ⟨isWhiteSpace_of_isPrinted printed, apart.1, apart.2.1⟩

theorem IsLeftover.visible_append
    {cut begun : List Char}
    (isLeftover : IsLeftover cut)
    (printed : ∀ char ∈ begun, isPrinted char = true) :
    ∀ char ∈ begun ++ cut, JsNumber.isWhiteSpace char = false ∧ char ≠ '\t' := by
  intro char member
  rcases List.mem_append.mp member with inBegun | inCut
  · exact ⟨isWhiteSpace_of_isPrinted (printed char inBegun),
      (ne_of_isPrinted (printed char inBegun)).1⟩
  · exact ⟨(isLeftover.visible inCut).1, (isLeftover.visible inCut).2.1⟩

theorem IsLeftover.oneLine
    {cut begun : List Char}
    (isLeftover : IsLeftover cut)
    (oneLine : '\n' ∉ begun) :
    '\n' ∉ begun ++ cut := by
  intro member
  rcases List.mem_append.mp member with inBegun | inCut
  · exact oneLine inBegun
  · exact (isLeftover.visible inCut).2.2 rfl

theorem IsLeftover.eq_nil
    {cut : List Char}
    (isLeftover : IsLeftover cut)
    (noEscape : escape ∉ cut) :
    cut = [] :=
  isLeftover.resolve_right fun ⟨_, isCut⟩ => noEscape isCut.escape_mem

/-- The beginning of a text shows what it does, up to what a cut leaves of a code. -/
theorem exists_leftover
    {left right : List Char}
    (noEscape : escape ∉ removeEscapeCharacters (left ++ right)) :
    ∃ kept cut hidden,
      removeEscapeCharacters left = kept ++ cut ∧
        removeEscapeCharacters (left ++ right) = kept ++ hidden ∧
        IsLeftover cut := by
  obtain ⟨kept, cut, first, ⟨rfl, whole⟩ | ⟨missing, rest, isCut, _, whole⟩⟩ :=
    removeEscapeCharacters_append noEscape
  · exact ⟨kept, [], _, first, whole, .inl rfl⟩
  · exact ⟨kept, cut, _, first, whole, .inr ⟨missing, isCut⟩⟩

section Cut

variable {begun rest : List Char}

/-- What begins visibly in one row is one part. -/
theorem filledParts_trimEnd
    {first : Char}
    (visible : JsNumber.isWhiteSpace first = false)
    (oneLine : '\n' ∉ first :: rest) :
    filledParts (trimEnd (first :: rest)) = [trimEnd (first :: rest)] := by
  refine filledParts_of_notMem ?_ fun member => oneLine (trimEnd_subset member)
  rw [trimEnd_cons visible]
  exact List.cons_ne_nil _ _

theorem formatRawMetric_short
    {rawMetric : List (List Char)}
    (short : rawMetric.length < 3)
    (timestamp : Int) :
    ∃ error, formatRawMetric rawMetric timestamp = .error error := by
  match rawMetric, short with
  | [], _ => exact ⟨_, rfl⟩
  | [_], _ => exact ⟨_, rfl⟩
  | [_, _], _ => exact ⟨_, rfl⟩

theorem isEndOfMetrics_cons
    {first : Char}
    (noDash : first ≠ '-')
    (noZero : first ≠ '0')
    (rest : List Char)
    (fields : List (List Char)) :
    DockerEnvHandle.isEndOfMetrics ((first :: rest) :: fields) = false := by
  simp [DockerEnvHandle.isEndOfMetrics, noDash, noZero]

namespace DockerEnvHandle

variable {now : Nat → Int}
variable {next : Nat → MetricCapture}

/-- A row without two tabs is an error unless it is taken for the end. -/
theorem captureParts_short
    {part : List Char}
    (nonempty : part ≠ [])
    (goesOn : isEndOfMetrics (part.splitOn '\t') = false)
    (short : (part.splitOn '\t').length < 3)
    (reads : Nat)
    (parts : List (List Char)) :
    ∃ error, captureParts now next reads (part :: parts) = ⟨[], .threw error⟩ := by
  obtain ⟨error, failed⟩ := formatRawMetric_short short (now reads)
  refine ⟨error, ?_⟩
  rw [captureParts, if_neg nonempty]
  simp [goesOn, failed]

theorem captureParts_oneField
    {part : List Char}
    (nonempty : part ≠ [])
    (oneField : '\t' ∉ part)
    (goesOn : isEndOfMetrics [part] = false)
    (reads : Nat)
    (parts : List (List Char)) :
    ∃ error, captureParts now next reads (part :: parts) = ⟨[], .threw error⟩ := by
  have field : part.splitOn '\t' = [part] := List.splitOn_eq_singleton oneField
  exact captureParts_short nonempty (by rw [field, goesOn]) (by simp [field]) reads parts

variable {line : MetricLine}
variable {after : List MetricLine}
variable {shown hidden cut : List Char}

/-- A row that is cut in its PID count is taken for the end, or it is an error. -/
theorem captureParts_inPids
    (pids : line.pidsText = shown ++ hidden)
    (nonempty : shown ++ cut ≠ [])
    (isLeftover : IsLeftover cut)
    (reads : Nat) :
    (captureParts now next reads [trimEnd (shown ++ cut)]).Shows (line :: after) ↔
      line.isEnd = true ∧ line.ShowsPids (shown ++ cut) := by
  have visible := isLeftover.visible_append fun char member =>
    line.isPrinted_pidsText char (pids ▸ List.mem_append_left hidden member)
  have oneField : '\t' ∉ shown ++ cut := fun member => (visible _ member).2 rfl
  rw [trimEnd_of_visible fun char member => (visible char member).1]
  cases taken : isEndOfMetrics [shown ++ cut] with
  | true =>
      have isMarker : shown ++ cut = "--".toList ∨ shown ++ cut = "0".toList := by
        simpa [isEndOfMetrics] using taken
      have noEscape : escape ∉ cut := by
        intro member
        have inMarker := List.mem_append_right shown member
        rcases isMarker with same | same <;> rw [same] at inMarker <;> revert inMarker <;> decide
      obtain rfl := isLeftover.eq_nil noEscape
      rw [List.append_nil] at isMarker
      obtain ⟨isEnd, rfl⟩ := MetricLine.isEnd_of_beginning pids isMarker
      rw [List.append_nil] at pids ⊢
      refine iff_of_true ?_ ⟨isEnd, .inl pids.symm⟩
      rw [List.append_nil] at nonempty oneField taken
      rw [captureParts, if_neg nonempty]
      simp only [List.splitOn_eq_singleton oneField, taken, if_true]
      exact MetricCapture.shows_returned isEnd after
  | false =>
      obtain ⟨error, failed⟩ :=
        @captureParts_oneField now next _ nonempty oneField taken reads []
      rw [failed]
      refine iff_of_false (MetricCapture.not_shows_threw _ _) ?_
      rintro ⟨isEnd, same | ⟨rest, longer⟩⟩
      · rw [same, MetricLine.isEndOfMetrics_pidsText, isEnd] at taken
        cases taken
      · rw [← longer] at oneField
        exact oneField (by simp)

theorem trimEnd_pidsText : trimEnd line.pidsText = line.pidsText :=
  trimEnd_of_visible fun char member =>
    isWhiteSpace_of_isPrinted (line.isPrinted_pidsText char member)

/-- The fields of a row that goes on behind its PID count. -/
theorem splitOn_trimEnd
    (line : MetricLine)
    (behind : List Char) :
    (trimEnd (line.pidsText ++ '\t' :: behind)).splitOn '\t' =
      line.pidsText ::
        if trimEnd behind = [] then [] else (trimEnd behind).splitOn '\t' := by
  have inPids : '\t' ∉ line.pidsText := fun member =>
    (ne_of_isPrinted (line.isPrinted_pidsText _ member)).1 rfl
  have ended : trimEnd ('\t' :: behind) =
      if trimEnd behind = [] then [] else '\t' :: trimEnd behind :=
    trimEnd_append ['\t'] behind
  rw [trimEnd_append, ended]
  by_cases none : trimEnd behind = []
  · rw [if_pos none, if_pos rfl, if_pos none, trimEnd_pidsText,
      List.splitOn_eq_singleton inPids]
  · rw [if_neg none, if_neg (List.cons_ne_nil _ _), if_neg none,
      List.splitOn_append_cons_self_of_not_mem inPids]

theorem trimEnd_behind_ne_nil
    (line : MetricLine)
    (behind : List Char) :
    trimEnd (line.pidsText ++ '\t' :: behind) ≠ [] := by
  intro none
  have fields := splitOn_trimEnd line behind
  rw [none] at fields
  exact line.pidsText_ne_nil (List.cons.inj fields).1.symm

/-- Behind the PID count of an end anything may follow. -/
theorem captureParts_endBehind
    (isEnd : line.isEnd = true)
    (behind : List Char)
    (reads : Nat)
    (parts : List (List Char)) :
    captureParts now next reads (trimEnd (line.pidsText ++ '\t' :: behind) :: parts) =
      ⟨[], .returned⟩ := by
  rw [captureParts, if_neg (trimEnd_behind_ne_nil line behind)]
  simp only [splitOn_trimEnd, MetricLine.isEndOfMetrics_pidsText, isEnd, if_true]

/-- A row without a second tab is an error. -/
theorem captureParts_inMemUsage
    {behind : List Char}
    (running : line.isEnd = false)
    (oneField : '\t' ∉ trimEnd behind)
    (reads : Nat)
    (parts : List (List Char)) :
    ∃ error,
      captureParts now next reads (trimEnd (line.pidsText ++ '\t' :: behind) :: parts) =
        ⟨[], .threw error⟩ := by
  refine captureParts_short (trimEnd_behind_ne_nil line behind) ?_ ?_ reads parts
  · rw [splitOn_trimEnd, MetricLine.isEndOfMetrics_pidsText, running]
  · rw [splitOn_trimEnd, List.splitOn_eq_singleton oneField]
    split <;> simp

/-- A row with both tabs gives an entry, whatever its CPU is. -/
theorem captureParts_inCpu
    {percentage : List Char}
    (running : line.isEnd = false)
    (nonempty : percentage ≠ [])
    (visible : ∀ char ∈ percentage, JsNumber.isWhiteSpace char = false)
    (oneField : '\t' ∉ percentage)
    (reads : Nat)
    (parts : List (List Char)) :
    captureParts now next reads
        (trimEnd (line.pidsText ++ '\t' :: (line.memUsage ++ '\t' :: percentage)) ::
          parts) =
      (captureParts now next (reads + 1) parts).after
        ⟨line.values.1, percentage.dropLast, now reads⟩ := by
  have kept : trimEnd (line.memUsage ++ '\t' :: percentage) =
      line.memUsage ++ '\t' :: percentage := by
    rw [List.append_cons, trimEnd_append, trimEnd_of_visible visible, if_neg nonempty]
  have inMemUsage : '\t' ∉ line.memUsage :=
    line.notMem_memUsage rfl (by decide)
  have fields :
      (trimEnd (line.pidsText ++ '\t' :: (line.memUsage ++ '\t' :: percentage))).splitOn
          '\t' =
        [line.pidsText, line.memUsage, percentage] := by
    rw [splitOn_trimEnd, kept, if_neg (by simp),
      List.splitOn_append_cons_self_of_not_mem inMemUsage,
      List.splitOn_eq_singleton oneField]
  rw [captureParts, if_neg (trimEnd_behind_ne_nil line _)]
  simp only [fields, MetricLine.isEndOfMetrics_pidsText, running, formatRawMetric_line]
  rfl

/-- Only an escape character in the place of the percent sign leaves the CPU as it is. -/
theorem dropLast_eq_cpu_iff
    {begun : List Char}
    (cpu : line.cpu ++ ['%'] = begun ++ hidden)
    (isLeftover : IsLeftover cut)
    (nonempty : begun ++ cut ≠ [])
    (isCut : hidden ++ cut ≠ []) :
    (begun ++ cut).dropLast = line.cpu ↔ cut = [escape] ∧ hidden = ['%'] := by
  have noEscape : escape ∉ line.cpu := fun member =>
    (ne_of_isPrinted (line.isPrinted_cpu _ (List.mem_append_left _ member))).2.2 rfl
  have isLast : cut = [escape] → (begun = line.cpu ↔ hidden = ['%']) := by
    rintro rfl
    constructor
    · rintro rfl
      exact (List.append_cancel_left cpu).symm
    · rintro rfl
      exact (List.append_cancel_right cpu).symm
  have later (rest : List Char) : begun ++ escape :: rest ≠ line.cpu := by
    intro same
    exact noEscape (same ▸ by simp)
  rcases isLeftover with rfl | ⟨missing, isCode⟩
  · refine iff_of_false (fun same => ?_) (by simp)
    have lengths := congrArg List.length cpu
    have shorter := congrArg List.length same
    have begins := List.length_pos_of_ne_nil nonempty
    have remains := List.length_pos_of_ne_nil isCut
    simp only [List.length_append, List.length_dropLast, List.append_nil,
      List.length_singleton] at lengths shorter begins remains
    omega
  · rcases isCode.eq_beginning with rfl | rfl | ⟨digit, _, rfl⟩
    · rw [List.dropLast_concat, isLast rfl, and_iff_right rfl]
    · refine iff_of_false ?_ (by simp)
      rw [List.dropLast_append_of_ne_nil (by simp)]
      exact later []
    · refine iff_of_false ?_ (by simp)
      rw [List.dropLast_append_of_ne_nil (by simp)]
      exact later ['[']

/-- The row of a running container that is cut behind its PID count. -/
theorem captureParts_behindPids
    {behind : List Char}
    (running : line.isEnd = false)
    (row : line.memUsage ++ '\t' :: (line.cpu ++ ['%']) = behind ++ hidden)
    (isLeftover : IsLeftover cut)
    (isCut : hidden ++ cut ≠ [])
    (reads : Nat) :
    (captureParts now next reads
        [trimEnd (line.pidsText ++ '\t' :: (behind ++ cut))]).Shows (line :: after) ↔
      cut = [escape] ∧ hidden = ['%'] ∧ (next (reads + 1)).Shows after := by
  have cutField : '\t' ∉ cut := fun member => (isLeftover.visible member).2.1 rfl
  have inMemUsage : '\t' ∉ line.memUsage := line.notMem_memUsage rfl (by decide)
  -- without its second tab the row is an error
  have error
      (oneField : '\t' ∉ trimEnd (behind ++ cut))
      (goesOn : cut = [escape] → hidden ≠ ['%']) :
      (captureParts now next reads
          [trimEnd (line.pidsText ++ '\t' :: (behind ++ cut))]).Shows (line :: after) ↔
        cut = [escape] ∧ hidden = ['%'] ∧ (next (reads + 1)).Shows after := by
    obtain ⟨error, failed⟩ :=
      @captureParts_inMemUsage now next _ _ running oneField reads []
    rw [failed]
    exact iff_of_false (MetricCapture.not_shows_threw _ _) fun whole =>
      goesOn whole.1 whole.2.1
  have untrimmed {text : List Char} (oneField : '\t' ∉ text) : '\t' ∉ trimEnd text :=
    fun member => oneField (trimEnd_subset member)
  have isHidden {text : List Char} (tab : '\t' ∈ text) : text ≠ ['%'] := by
    rintro rfl
    revert tab
    decide
  rcases List.append_eq_append_iff.mp row with
      ⟨further, rfl, rest⟩ | ⟨further, isPrefix, rfl⟩
  · cases further with
    | nil =>
        rw [List.append_nil] at error ⊢
        rw [List.nil_append] at rest
        refine error (untrimmed ?_) fun _ => isHidden (rest ▸ List.mem_cons_self)
        exact fun member => (List.mem_append.mp member).elim inMemUsage cutField
    | cons tab begun =>
        obtain ⟨rfl, cpu⟩ := List.cons.inj rest
        by_cases nothing : begun ++ cut = []
        · obtain ⟨rfl, rfl⟩ := List.append_eq_nil_iff.mp nothing
          refine error ?_ nofun
          rw [List.append_nil, trimEnd_append,
            if_pos (show trimEnd ['\t'] = [] from rfl)]
          exact untrimmed inMemUsage
        · have visible := isLeftover.visible_append fun char member =>
            line.isPrinted_cpu char (cpu ▸ List.mem_append_left hidden member)
          rw [List.append_assoc, List.cons_append,
            captureParts_inCpu running nothing (fun char member => (visible char member).1)
              (fun member => (visible _ member).2 rfl),
            MetricCapture.shows_after running, ← and_assoc,
            ← dropLast_eq_cpu_iff cpu isLeftover nothing isCut, Prod.mk.injEq]
          exact and_congr (and_iff_right rfl) Iff.rfl
  · have inBehind : '\t' ∉ behind := fun member =>
      inMemUsage (isPrefix ▸ List.mem_append_left further member)
    refine error (untrimmed ?_) fun _ => isHidden (List.mem_append_right _ (.head _))
    exact fun member => (List.mem_append.mp member).elim inBehind cutField

/-- A row that is cut, or that a code is left behind, is rarely read as it should be. -/
theorem captureParts_cutRow
    (text : line.text = shown ++ hidden)
    (begins : shown ≠ [])
    (isLeftover : IsLeftover cut)
    (isCut : hidden ++ cut ≠ [])
    (reads : Nat) :
    (captureParts now next reads (filledParts (trimEnd (shown ++ cut)))).Shows
        (line :: after) ↔
      line.isEnd = true ∧ line.ShowsPids (shown ++ cut) ∨
        line.isEnd = false ∧ cut = [escape] ∧ hidden = ['%'] ∧
          (next (reads + 1)).Shows after := by
  obtain ⟨first, pids, isPids⟩ := List.exists_cons_of_ne_nil line.pidsText_ne_nil
  obtain ⟨other, rest, rfl⟩ := List.exists_cons_of_ne_nil begins
  have onePart : filledParts (trimEnd (other :: rest ++ cut)) =
      [trimEnd (other :: rest ++ cut)] := by
    have same : first = other := by
      rw [MetricLine.text, isPids] at text
      exact (List.cons.inj text).1
    have visible : isPrinted first = true :=
      line.isPrinted_pidsText first (by simp [isPids])
    exact filledParts_trimEnd (isWhiteSpace_of_isPrinted (same ▸ visible))
      (isLeftover.oneLine (newline_notMem_begun text))
  have inPids {further : List Char}
      (isPrefix : line.pidsText = other :: rest ++ further)
      (tab : '\t' ∈ hidden) :
      (captureParts now next reads [trimEnd (other :: rest ++ cut)]).Shows
          (line :: after) ↔
        line.isEnd = true ∧ line.ShowsPids (other :: rest ++ cut) ∨
          line.isEnd = false ∧ cut = [escape] ∧ hidden = ['%'] ∧
            (next (reads + 1)).Shows after := by
    rw [captureParts_inPids isPrefix (List.cons_ne_nil _ _) isLeftover]
    refine (or_iff_left ?_).symm
    rintro ⟨_, _, rfl, _⟩
    revert tab
    decide
  rw [onePart]
  rw [MetricLine.text] at text
  rcases List.append_eq_append_iff.mp text with
      ⟨further, beyond, remains⟩ | ⟨further, isPrefix, remains⟩
  · cases further with
    | nil =>
        rw [List.nil_append] at remains
        rw [List.append_nil] at beyond
        exact @inPids [] (by rw [List.append_nil, beyond]) (remains ▸ List.mem_cons_self)
    | cons tab behind =>
        obtain ⟨rfl, row⟩ := List.cons.inj remains
        rw [beyond, List.append_assoc, List.cons_append]
        cases ends : line.isEnd with
        | true =>
            rw [captureParts_endBehind ends]
            refine iff_of_true (MetricCapture.shows_returned ends after) (.inl ⟨rfl, .inr ?_⟩)
            exact ⟨behind ++ cut, by simp⟩
        | false =>
            rw [captureParts_behindPids ends row isLeftover isCut]
            simp
  · exact inPids isPrefix (remains ▸ List.mem_append_right further (.head _))

/-- What a code leaves at the start of a chunk is an error. -/
theorem captureChunks_leftover
    {front more raw chunk : List Char}
    {rest : List (List Char)}
    (printed : ∀ char ∈ front, isPrinted char = true)
    (nonempty : chunk ≠ [])
    (begins : chunk ++ rest.flatten = '[' :: raw)
    (cleaned : removeEscapeCharacters raw = (front ++ ['%']) ++ '\n' :: more)
    (noEscape : escape ∉ more)
    (reads : Nat) :
    ∃ error, captureChunks now reads (chunk :: rest) = ⟨[], .threw error⟩ := by
  obtain ⟨first, others, rfl⟩ := List.exists_cons_of_ne_nil nonempty
  rw [List.cons_append] at begins
  obtain ⟨rfl, rfl⟩ := List.cons.inj begins
  have printed : ∀ char ∈ front ++ ['%'], isPrinted char = true := by
    intro char member
    rcases List.mem_append.mp member with inFront | isLast
    · exact printed char inFront
    · rw [List.mem_singleton.mp isLast]
      rfl
  have noCode : escape ∉ removeEscapeCharacters (others ++ rest.flatten) := by
    rw [cleaned]
    intro member
    rcases List.mem_append.mp member with inFront | inMore
    · exact (ne_of_isPrinted (printed _ inFront)).2.2 rfl
    · exact noEscape ((List.mem_cons.mp inMore).resolve_left (by decide))
  obtain ⟨kept, cut, hidden, first, whole, isLeftover⟩ :=
    exists_leftover noCode
  rw [cleaned] at whole
  have started : removeEscapeCharacters ('[' :: others) = '[' :: (kept ++ cut) := by
    rw [removeEscapeCharacters_cons (codeLength_cons (by decide)), first]
  have oneRow
      (within : ∀ char ∈ kept, isPrinted char = true) :
      ∃ error, captureChunks now reads (('[' :: others) :: rest) =
        ⟨[], .threw error⟩ := by
    have printedRow : ∀ char ∈ '[' :: kept, isPrinted char = true :=
      List.forall_mem_cons.mpr ⟨rfl, within⟩
    have visible : ∀ char ∈ '[' :: (kept ++ cut), _ :=
      isLeftover.visible_append printedRow
    have oneLine : '\n' ∉ '[' :: (kept ++ cut) :=
      isLeftover.oneLine fun member => (ne_of_isPrinted (printedRow _ member)).2.1 rfl
    rw [captureChunks_cons, started, trim_eq, trimStart_cons (by decide),
      filledParts_trimEnd (by decide) oneLine,
      trimEnd_of_visible fun char member => (visible char member).1]
    exact captureParts_oneField (List.cons_ne_nil _ _)
      (fun member => (visible _ member).2 rfl)
      (isEndOfMetrics_cons (by decide) (by decide) _ []) reads []
  rcases List.append_eq_append_iff.mp whole with
      ⟨behind, rfl, remains⟩ | ⟨behind, isPrefix, _⟩
  · cases behind with
    | nil => exact oneRow (by simpa using printed)
    | cons newline later =>
        obtain ⟨rfl, _⟩ := List.cons.inj remains
        have rows :
            '[' :: (front ++ ['%'] ++ '\n' :: later ++ cut) =
              ('[' :: front ++ ['%']) ++ '\n' :: (later ++ cut) := by simp
        have printedRow : ∀ char ∈ '[' :: front ++ ['%'], isPrinted char = true :=
          List.forall_mem_cons.mpr ⟨rfl, printed⟩
        rw [captureChunks_cons, started, trim_eq, trimStart_cons (by decide), rows,
          filledParts_trimEnd_row (by decide) fun member =>
            (ne_of_isPrinted (printedRow _ member)).2.1 rfl]
        exact captureParts_oneField (List.cons_ne_nil _ _)
          (fun member => (ne_of_isPrinted (printedRow _ member)).1 rfl)
          (isEndOfMetrics_cons (by decide) (by decide) _ []) reads _
  · exact oneRow fun char member => printed char (isPrefix ▸ List.mem_append_left _ member)

end DockerEnvHandle

end Cut

end Prescott
