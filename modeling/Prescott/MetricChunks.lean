import Prescott.MetricRows

namespace Prescott

/-!
# Chunks of captured metrics

The lines of `docker stats` are captured exactly if the chunks are cut between
them: what one chunk leads to is settled first, then all of them by induction.
-/

/-! ## What a chunk shows -/

/-- The beginning of some lines ends between two of them or in one of them. -/
theorem exists_shown
    {lines : List MetricLine}
    {kept hidden : List Char}
    (whole : kept ++ hidden = statsText lines) :
    (∃ done later,
        lines = done ++ later ∧ kept = statsText done ∧ hidden = statsText later) ∨
      ∃ done line after begun rest,
        lines = done ++ line :: after ∧
          line.text = begun ++ rest ∧
          begun ≠ [] ∧
          kept = statsText done ++ begun ∧
          hidden = rest ++ '\n' :: statsText after := by
  induction lines generalizing kept with
  | nil =>
      obtain ⟨rfl, rfl⟩ := List.append_eq_nil_iff.mp whole
      exact .inl ⟨[], [], rfl, rfl, rfl⟩
  | cons line others inductionHypothesis =>
      rw [statsText_cons, List.append_cons] at whole
      rcases List.append_eq_append_iff.mp whole with
          ⟨rest, ended, rfl⟩ | ⟨further, rfl, remains⟩
      · rcases List.eq_nil_or_concat rest with rfl | ⟨rest, last, rfl⟩
        · rw [List.append_nil] at ended
          exact .inl ⟨[line], others, rfl, by simp [statsText_cons, ended], rfl⟩
        · rw [List.concat_eq_append, ← List.append_assoc] at ended
          obtain ⟨text, same⟩ := List.append_inj' ended rfl
          obtain rfl := List.singleton_injective same
          rw [List.concat_eq_append, List.append_assoc, List.singleton_append]
          by_cases nothing : kept = []
          · subst nothing
            rw [List.nil_append] at text
            exact .inl ⟨[], line :: others, rfl, rfl, by rw [statsText_cons, text]⟩
          · exact .inr ⟨[], line, others, kept, rest, rfl, text, nothing, rfl, rfl⟩
      · rcases inductionHypothesis remains.symm with
          ⟨done, later, rfl, rfl, same⟩ |
            ⟨done, inner, after, begun, rest, rfl, text, begins, rfl, same⟩
        · exact .inl ⟨line :: done, later, rfl, by simp [statsText_cons], same⟩
        · exact .inr ⟨line :: done, inner, after, begun, rest, rfl, text, begins,
            by simp [statsText_cons], same⟩

theorem text_eq_concat
    (line : MetricLine) :
    line.text =
      (line.pidsText ++ '\t' :: (line.memUsage ++ '\t' :: line.cpu)) ++ ['%'] := by
  simp [MetricLine.text]

theorem filledParts_statsText
    (done : List MetricLine)
    (begun : List Char) :
    filledParts (trimEnd (statsText done ++ begun)) =
      done.map MetricLine.text ++ filledParts (trimEnd begun) := by
  induction done with
  | nil => rfl
  | cons line others inductionHypothesis =>
      have oneLine := @newline_notMem_text line
      rw [text_eq_concat] at oneLine
      rw [statsText_cons, List.append_assoc, List.cons_append, text_eq_concat,
        filledParts_trimEnd_row (by decide) oneLine, inductionHypothesis, List.map_cons,
        text_eq_concat, List.cons_append]

theorem filledParts_trimEnd_text
    (line : MetricLine) :
    filledParts (trimEnd line.text) = [line.text] := by
  have oneLine := @newline_notMem_text line
  rw [text_eq_concat] at oneLine ⊢
  rw [trimEnd_concat (by decide), filledParts_of_notMem (by simp) oneLine]

/-- A text starts with no white space. -/
def StartsVisibly (text : List Char) : Prop :=
  ∀ char ∈ text.head?, JsNumber.isWhiteSpace char = false

theorem startsVisibly_text
    (line : MetricLine)
    (rest : List Char) :
    StartsVisibly (line.text ++ rest) := by
  intro char isFirst
  obtain ⟨first, others, pids⟩ := List.exists_cons_of_ne_nil line.pidsText_ne_nil
  rw [MetricLine.text, pids] at isFirst
  obtain rfl := Option.some.inj isFirst
  exact isWhiteSpace_of_isPrinted (line.isPrinted_pidsText first (by simp [pids]))

/-- The newline of the line before is dropped. -/
theorem trimStart_lead
    {lead text : List Char}
    (isLead : lead = [] ∨ lead = ['\n'])
    (visibly : StartsVisibly text) :
    JsNumber.trimStart (lead ++ text) = text := by
  cases text with
  | nil => rcases isLead with rfl | rfl <;> rfl
  | cons first rest =>
      have visible := visibly first rfl
      rcases isLead with rfl | rfl
      · exact trimStart_cons visible rest
      · exact trimStart_cons visible rest

section Shown

variable {seen done later todo : List MetricLine}
variable {lead shown begun cut missing : List Char}
variable {line : MetricLine}

theorem eq_nil_of_statsText
    (nothing : statsText todo = []) :
    todo = [] := by
  cases todo with
  | nil => rfl
  | cons line others =>
      rw [statsText_cons] at nothing
      cases List.append_eq_nil_iff.mp nothing |>.2

theorem not_showsPids_code
    (isCut : IsCutCode cut missing) :
    ¬ line.ShowsPids cut := by
  obtain ⟨first, pids, isPids⟩ := List.exists_cons_of_ne_nil line.pidsText_ne_nil
  have printed : isPrinted first = true :=
    line.isPrinted_pidsText first (by simp [isPids])
  obtain ⟨rest, begins⟩ := isCut.eq_cons
  have differ : first ≠ escape := (ne_of_isPrinted printed).2.2
  rw [MetricLine.ShowsPids, begins, isPids]
  rintro (same | ⟨rest, same⟩)
  · exact differ (List.cons.inj same).1.symm
  · exact differ (List.cons.inj same).1

/-- Between two lines the end has not been shown. -/
theorem standsBetween_of_lead
    (isLead : lead = [] ∨ lead = ['\n'])
    (soFar : shown ++ lead = statsText seen)
    (running : ∀ line ∈ seen, line.isEnd = false) :
    StandsBetween (seen ++ todo) shown ∧ ¬ ShowsEnd (seen ++ todo) shown := by
  rcases isLead with rfl | rfl
  · rw [List.append_nil] at soFar
    refine ⟨⟨seen, List.prefix_append _ _, .inl soFar⟩, ?_⟩
    rw [soFar, ← List.append_nil (statsText seen), showsEnd_iff running List.not_mem_nil]
    rintro ⟨line, _, _, _, nothing | isPrefix⟩
    · exact line.pidsText_ne_nil nothing.symm
    · exact absurd (List.prefix_nil.mp isPrefix) (by simp)
  · refine ⟨⟨seen, List.prefix_append _ _, .inr soFar⟩, ?_⟩
    rcases List.eq_nil_or_concat seen with rfl | ⟨before, last, rfl⟩
    · cases List.append_eq_nil_iff.mp soFar |>.2
    rw [List.concat_eq_append] at soFar running ⊢
    rw [statsText_append, statsText_cons, statsText_nil, ← List.append_assoc] at soFar
    obtain rfl := List.append_cancel_right soFar
    rw [List.append_assoc, showsEnd_iff
      (fun line member => running line (List.mem_append_left _ member)) newline_notMem_text]
    rintro ⟨line, _, same, isEnd, _⟩
    obtain rfl := (List.cons.inj same).1
    rw [running last (by simp)] at isEnd
    cases isEnd

/-- An end that is shown as a whole is shown. -/
theorem showsEnd_of_ended
    (running : ∀ line ∈ seen, line.isEnd = false)
    (ended : ∃ line ∈ done, line.isEnd = true)
    (begun : List Char) :
    ShowsEnd (seen ++ (done ++ todo)) (statsText (seen ++ done) ++ begun) := by
  induction done generalizing seen with
  | nil =>
      obtain ⟨_, member, _⟩ := ended
      cases member
  | cons line others inductionHypothesis =>
      cases ends : line.isEnd with
      | true =>
          refine ⟨seen, line, others ++ todo, statsText (line :: others) ++ begun, rfl,
            running, ends, by rw [statsText_append, List.append_assoc], .inr ?_⟩
          rw [statsText_cons, MetricLine.text]
          exact ⟨line.memUsage ++ '\t' :: (line.cpu ++ ['%']) ++ '\n' :: statsText others ++
            begun, by simp⟩
      | false =>
          have later :=
            @inductionHypothesis (seen ++ [line])
              (List.forall_mem_append.mpr ⟨running, by simpa using ends⟩) (by
                obtain ⟨other, member, isEnd⟩ := ended
                rcases List.mem_cons.mp member with rfl | behind
                · rw [ends] at isEnd
                  cases isEnd
                · exact ⟨other, behind, isEnd⟩)
          simpa using later

/-- A row that is cut does not stand between two lines. -/
theorem not_standsBetween
    {rest : List Char}
    (text : line.text = begun ++ rest)
    (begins : begun ≠ [])
    (isLeftover : IsLeftover cut)
    (isCut : rest ++ cut ≠ []) :
    ¬ StandsBetween (seen ++ line :: todo) (statsText seen ++ (begun ++ cut)) := by
  rw [standsBetween_iff (isLeftover.oneLine (newline_notMem_begun text))]
  rintro (nothing | ⟨other, _, same, whole⟩)
  · exact begins (List.append_eq_nil_iff.mp nothing).1
  · obtain rfl := (List.cons.inj same).1
    rw [text] at whole
    obtain rfl := List.append_cancel_left whole
    have noEscape : escape ∉ cut := fun member =>
      line.notMem_text rfl (by decide) (by decide) (text ▸ List.mem_append_right _ member)
    obtain rfl := isLeftover.eq_nil noEscape
    exact isCut rfl

end Shown

namespace DockerEnvHandle

variable {now : Nat → Int}
variable {next : Nat → MetricCapture}
variable {seen done later todo : List MetricLine}
variable {lead begun cut missing chunk : List Char}
variable {chunks rest : List (List Char)}

theorem captureParts_code
    (isCut : IsCutCode cut missing)
    (reads : Nat) :
    ∃ error,
      captureParts now next reads (filledParts (trimEnd cut)) = ⟨[], .threw error⟩ := by
  have visible := fun char => @IsLeftover.visible cut (.inr ⟨missing, isCut⟩) char
  obtain ⟨others, begins⟩ := isCut.eq_cons
  have oneField : '\t' ∉ cut := fun member => (visible _ member).2.1 rfl
  rw [trimEnd_of_visible fun char member => (visible char member).1,
    filledParts_of_notMem isCut.begun fun member => (visible _ member).2.2 rfl]
  refine captureParts_oneField isCut.begun oneField ?_ reads []
  rw [begins]
  exact isEndOfMetrics_cons (by decide) (by decide) others []

/-- A chunk is read by the lines it shows and what it begins. -/
theorem captureChunks_shown
    (isLead : lead = [] ∨ lead = ['\n'])
    (visibly : StartsVisibly begun)
    (cleaned : removeEscapeCharacters chunk = lead ++ (statsText done ++ begun))
    (reads : Nat) :
    captureChunks now reads (chunk :: rest) =
      captureParts now (fun reads => captureChunks now reads rest) reads
        (done.map MetricLine.text ++ filledParts (trimEnd begun)) := by
  have startsVisibly : StartsVisibly (statsText done ++ begun) := by
    cases done with
    | nil => exact visibly
    | cons line others =>
        rw [statsText_cons, List.append_assoc]
        exact startsVisibly_text line _
  rw [captureChunks_cons, cleaned, trim_eq, trimStart_lead isLead startsVisibly,
    filledParts_statsText]

theorem startsVisibly_leftover
    (isLeftover : IsLeftover cut) :
    StartsVisibly cut := by
  intro char isFirst
  exact (isLeftover.visible (List.mem_of_mem_head? isFirst)).1

/-- Behind a code that was left before a percent sign there is an error. -/
theorem not_shows_behindEscape
    {raw : List Char}
    (nonempty : ∀ chunk ∈ chunks, chunk ≠ [])
    (isCut : IsCutCode [escape] missing)
    (begins : chunks.flatten = missing ++ raw)
    (cleaned : removeEscapeCharacters raw = '%' :: '\n' :: statsText later)
    (reads : Nat) :
    ¬ (captureChunks now reads chunks).Shows todo := by
  obtain ⟨front, rfl, printed⟩ :
      ∃ front, missing = '[' :: front ∧ ∀ char ∈ front, isPrinted char = true := by
    have isCode := isCut.isCode
    generalize whole : [escape] ++ missing = code at isCode
    cases isCode with
    | @plain command isCommand =>
        exact ⟨[command], (List.cons.inj whole).2,
          by simpa using isPrinted_of_isCommand isCommand⟩
    | @numbered digit command isDigit isCommand =>
        exact ⟨[digit, command], (List.cons.inj whole).2,
          by simpa using ⟨isPrinted_of_isDigit isDigit, isPrinted_of_isCommand isCommand⟩⟩
  have noEscape : escape ∉ front := fun member =>
    (ne_of_isPrinted (printed _ member)).2.2 rfl
  have same := removeEscapeCharacters_of_notMem noEscape
  have rows : removeEscapeCharacters (front ++ raw) =
      (front ++ ['%']) ++ '\n' :: statsText later := by
    rw [removeEscapeCharacters_append_of_notMem (by rw [same]; exact noEscape), same,
      cleaned]
    simp
  cases chunks with
  | nil => cases begins
  | cons chunk rest =>
      obtain ⟨error, failed⟩ :=
        @captureChunks_leftover now _ _ _ _ _ printed (nonempty chunk (.head _)) begins rows
          escape_notMem_statsText reads
      rw [failed]
      exact MetricCapture.not_shows_threw _ _

end DockerEnvHandle

/-! ## From chunk to chunk -/

/-- What was read ends between two lines, none of which is an end so far. -/
structure Between
    (lines seen todo : List MetricLine)
    (lead read unread : List Char) :
    Prop where
  whole : lines = seen ++ todo
  isLead : lead = [] ∨ lead = ['\n']
  soFar : removeEscapeCharacters read ++ lead = statsText seen
  running : ∀ line ∈ seen, line.isEnd = false
  toCome : removeEscapeCharacters unread = lead ++ statsText todo

namespace Between

variable {lines seen todo : List MetricLine}
variable {lead read unread chunk : List Char}
variable (between : Between lines seen todo lead read unread)

include between

theorem noEscape : escape ∉ removeEscapeCharacters read := by
  intro member
  exact escape_notMem_statsText (between.soFar ▸ List.mem_append_left lead member)

theorem noEscape_unread : escape ∉ removeEscapeCharacters unread := by
  rw [between.toCome]
  intro member
  rcases List.mem_append.mp member with inLead | inLines
  · rcases between.isLead with rfl | rfl
    · cases inLead
    · cases List.mem_singleton.mp inLead
  · exact escape_notMem_statsText inLines

theorem removeEscapeCharacters_append
    (chunk : List Char) :
    removeEscapeCharacters (read ++ chunk) =
      removeEscapeCharacters read ++ removeEscapeCharacters chunk :=
  removeEscapeCharacters_append_of_notMem between.noEscape chunk

/-- What is read together with a chunk shows some more lines and what the chunk begins. -/
theorem removeEscapeCharacters_chunk
    {done : List MetricLine}
    {begun : List Char}
    (cleaned : removeEscapeCharacters chunk = lead ++ (statsText done ++ begun)) :
    removeEscapeCharacters (read ++ chunk) = statsText (seen ++ done) ++ begun := by
  rw [between.removeEscapeCharacters_append, cleaned, ← List.append_assoc, between.soFar,
    ← List.append_assoc, ← statsText_append]

theorem standsBetween :
    StandsBetween lines (removeEscapeCharacters read) ∧
      ¬ ShowsEnd lines (removeEscapeCharacters read) := by
  rw [between.whole]
  exact standsBetween_of_lead between.isLead between.soFar between.running

end Between

/-- What comes of a chunk: it ends between two lines, it shows the end, or it is misread. -/
inductive ChunkStep
    (now : Nat → Int)
    (lines todo : List MetricLine)
    (read : List Char)
    (reads : Nat)
    (chunk : List Char)
    (rest : List (List Char)) :
    Prop where
  | goesOn
      {seen later : List MetricLine}
      {lead : List Char}
      {laterReads : Nat}
      (between : Between lines seen later lead (read ++ chunk) rest.flatten)
      (same :
        (DockerEnvHandle.captureChunks now reads (chunk :: rest)).Shows todo ↔
          (DockerEnvHandle.captureChunks now laterReads rest).Shows later)
  | ends
      (showsEnd : ShowsEnd lines (removeEscapeCharacters (read ++ chunk)))
      (shows : (DockerEnvHandle.captureChunks now reads (chunk :: rest)).Shows todo)
  | misread
      (notEnd : ¬ ShowsEnd lines (removeEscapeCharacters (read ++ chunk)))
      (notBetween : ¬ StandsBetween lines (removeEscapeCharacters (read ++ chunk)))
      (notShown : ¬ (DockerEnvHandle.captureChunks now reads (chunk :: rest)).Shows todo)

section Step

variable {now : Nat → Int}
variable {lines seen todo done later : List MetricLine}
variable {lead read chunk cut : List Char}
variable {rest : List (List Char)}

open DockerEnvHandle

/-- A chunk of codes only; the newline of the line before is still to come. -/
theorem chunkStep_codes
    (between : Between lines seen todo ['\n'] read (chunk ++ rest.flatten))
    (cleaned : removeEscapeCharacters chunk = cut)
    (left :
      cut = [] ∧ removeEscapeCharacters rest.flatten = '\n' :: statsText todo ∨
        ∃ missing, IsCutCode cut missing)
    (reads : Nat) :
    ChunkStep now lines todo read reads chunk rest := by
  have shown := between.removeEscapeCharacters_append chunk
  rcases left with ⟨rfl, toCome⟩ | ⟨missing, isCut⟩
  · rw [cleaned, List.append_nil] at shown
    refine @ChunkStep.goesOn _ _ _ _ _ _ _ seen todo ['\n'] reads
      ⟨between.whole, between.isLead, by rw [shown, between.soFar], between.running,
        toCome⟩ ?_
    rw [@captureChunks_shown now [] [] [] _ rest (.inl rfl) nofun cleaned]
    rfl
  · have isLeftover : IsLeftover cut := .inr ⟨missing, isCut⟩
    obtain ⟨before, last, rfl, isRead⟩ :
        ∃ before last,
          seen = before ++ [last] ∧
            removeEscapeCharacters read = statsText before ++ last.text := by
      have soFar := between.soFar
      rcases List.eq_nil_or_concat seen with rfl | ⟨before, last, rfl⟩
      · cases List.append_eq_nil_iff.mp soFar |>.2
      rw [List.concat_eq_append, statsText_append, statsText_cons, statsText_nil,
        ← List.append_assoc] at soFar
      exact ⟨before, last, List.concat_eq_append, List.append_cancel_right soFar⟩
    have oneLine : '\n' ∉ last.text ++ cut := isLeftover.oneLine newline_notMem_text
    rw [cleaned, isRead, List.append_assoc] at shown
    have whole : lines = before ++ last :: todo := by
      rw [between.whole, List.append_assoc, List.singleton_append]
    refine .misread ?_ ?_ ?_
    · rw [shown, whole, showsEnd_iff
        (fun line member => between.running line (List.mem_append_left _ member)) oneLine]
      rintro ⟨line, _, same, isEnd, _⟩
      obtain rfl := (List.cons.inj same).1
      rw [between.running last (by simp)] at isEnd
      cases isEnd
    · rw [shown, whole]
      exact not_standsBetween (List.append_nil _).symm text_ne_nil isLeftover isCut.begun
    · rw [@captureChunks_shown now [] [] cut _ rest (.inl rfl)
        (startsVisibly_leftover isLeftover) cleaned]
      obtain ⟨error, failed⟩ :=
        @captureParts_code now (fun reads => captureChunks now reads rest) _ _ isCut reads
      rw [List.map_nil, List.nil_append, failed]
      exact MetricCapture.not_shows_threw _ _

/-- A chunk with a whole end in it. -/
theorem chunkStep_ended
    {begun : List Char}
    (between : Between lines seen (done ++ later) lead read (chunk ++ rest.flatten))
    (visibly : StartsVisibly begun)
    (cleaned : removeEscapeCharacters chunk = lead ++ (statsText done ++ begun))
    (ended : ∃ line ∈ done, line.isEnd = true)
    (reads : Nat) :
    ChunkStep now lines (done ++ later) read reads chunk rest := by
  refine .ends ?_ ?_
  · rw [between.removeEscapeCharacters_chunk cleaned, between.whole]
    exact showsEnd_of_ended between.running ended begun
  · rw [captureChunks_shown between.isLead visibly cleaned]
    exact captureParts_ended ended reads _

/-- A chunk that ends between two lines, or in a code between them. -/
theorem chunkStep_between
    (between : Between lines seen (done ++ later) lead read (chunk ++ rest.flatten))
    (cleaned : removeEscapeCharacters chunk = lead ++ (statsText done ++ cut))
    (left :
      cut = [] ∧ removeEscapeCharacters rest.flatten = statsText later ∨
        ∃ missing, IsCutCode cut missing)
    (reads : Nat) :
    ChunkStep now lines (done ++ later) read reads chunk rest := by
  have isLeftover : IsLeftover cut := left.imp And.left id
  have visibly := startsVisibly_leftover isLeftover
  by_cases ended : ∃ line ∈ done, line.isEnd = true
  · exact chunkStep_ended between visibly cleaned ended reads
  have running : ∀ line ∈ done, line.isEnd = false := by simpa using ended
  have runningSeen : ∀ line ∈ seen ++ done, line.isEnd = false :=
    List.forall_mem_append.mpr ⟨between.running, running⟩
  have captured :=
    @captureChunks_shown now done lead cut chunk rest between.isLead visibly cleaned reads
  have shown := between.removeEscapeCharacters_chunk cleaned
  have whole : lines = (seen ++ done) ++ later := by
    rw [between.whole, List.append_assoc]
  rcases left with ⟨rfl, toCome⟩ | ⟨missing, isCut⟩
  · refine @ChunkStep.goesOn _ _ _ _ _ _ _ (seen ++ done) later [] (reads + done.length)
      ⟨whole, .inl rfl, by rw [shown, List.append_nil, List.append_nil], runningSeen,
        toCome⟩ ?_
    rw [captured, captureParts_rows running]
    rfl
  · have oneLine : '\n' ∉ cut := fun member => (isLeftover.visible member).2.2 rfl
    refine .misread ?_ ?_ ?_
    · rw [shown, whole, showsEnd_iff runningSeen oneLine]
      rintro ⟨line, _, _, _, pids⟩
      exact not_showsPids_code isCut pids
    · rw [shown, whole, standsBetween_iff oneLine]
      rintro (nothing | ⟨line, _, _, rfl⟩)
      · exact isCut.begun nothing
      · exact line.notMem_text rfl (by decide) (by decide) isCut.escape_mem
    · obtain ⟨error, failed⟩ :=
        @captureParts_code now (fun reads => captureChunks now reads rest) _ _ isCut
          (reads + done.length)
      rw [captured, captureParts_rows running, failed]
      exact MetricCapture.not_shows_threw _ _

variable {line : MetricLine}

/-- A chunk that ends before the newline of a line. -/
theorem chunkStep_beforeNewline
    (between : Between lines seen (done ++ line :: later) lead read (chunk ++ rest.flatten))
    (cleaned : removeEscapeCharacters chunk = lead ++ (statsText done ++ line.text))
    (running : ∀ line ∈ done, line.isEnd = false)
    (toCome : removeEscapeCharacters rest.flatten = ['\n'] ++ statsText later)
    (reads : Nat) :
    ChunkStep now lines (done ++ line :: later) read reads chunk rest := by
  have visibly : StartsVisibly line.text := by
    simpa using startsVisibly_text line []
  have runningSeen : ∀ line ∈ seen ++ done, line.isEnd = false :=
    List.forall_mem_append.mpr ⟨between.running, running⟩
  have captured :=
    @captureChunks_shown now done lead line.text chunk rest between.isLead visibly cleaned
      reads
  have shown := between.removeEscapeCharacters_chunk cleaned
  have whole : lines = (seen ++ done) ++ line :: later := by
    rw [between.whole, List.append_assoc]
  rw [filledParts_trimEnd_text] at captured
  cases ends : line.isEnd with
  | true =>
      refine .ends ?_ ?_
      · rw [shown, whole, showsEnd_iff runningSeen newline_notMem_text]
        refine ⟨line, later, rfl, ends, .inr ?_⟩
        exact ⟨line.memUsage ++ '\t' :: (line.cpu ++ ['%']), by simp [MetricLine.text]⟩
      · rw [captured, captureParts_rows running, captureParts_end ends]
        exact MetricCapture.shows_returned ends later
  | false =>
      refine @ChunkStep.goesOn _ _ _ _ _ _ _ (seen ++ done ++ [line]) later ['\n']
        (reads + done.length + 1) ⟨?_, .inr rfl, ?_, ?_, toCome⟩ ?_
      · rw [whole, List.append_assoc _ [line], List.singleton_append]
      · rw [shown, statsText_append _ [line], statsText_cons, statsText_nil,
          List.append_assoc]
      · exact List.forall_mem_append.mpr ⟨runningSeen, by simpa using ends⟩
      · rw [captured, captureParts_rows running, captureParts_running ends,
          MetricCapture.shows_after ends, and_iff_right rfl]
        rfl

/-- A chunk that ends in a line. -/
theorem chunkStep_within
    {begun hidden : List Char}
    (between : Between lines seen (done ++ line :: later) lead read (chunk ++ rest.flatten))
    (text : line.text = begun ++ hidden)
    (begins : begun ≠ [])
    (cleaned : removeEscapeCharacters chunk = lead ++ (statsText done ++ (begun ++ cut)))
    (nonempty : ∀ chunk ∈ rest, chunk ≠ [])
    (left :
      cut = [] ∧
          removeEscapeCharacters rest.flatten = hidden ++ '\n' :: statsText later ∨
        ∃ missing raw,
          IsCutCode cut missing ∧
            rest.flatten = missing ++ raw ∧
            removeEscapeCharacters raw = hidden ++ '\n' :: statsText later)
    (reads : Nat) :
    ChunkStep now lines (done ++ line :: later) read reads chunk rest := by
  have isLeftover : IsLeftover cut :=
    left.imp And.left fun ⟨missing, _, isCut, _⟩ => ⟨missing, isCut⟩
  have visibly : StartsVisibly (begun ++ cut) := by
    obtain ⟨first, others, rfl⟩ := List.exists_cons_of_ne_nil begins
    intro char isFirst
    refine startsVisibly_text line [] char ?_
    rw [text]
    exact isFirst
  by_cases ended : ∃ line ∈ done, line.isEnd = true
  · exact chunkStep_ended between visibly cleaned ended reads
  have running : ∀ line ∈ done, line.isEnd = false := by simpa using ended
  by_cases isCut : hidden ++ cut = []
  · obtain ⟨rfl, rfl⟩ := List.append_eq_nil_iff.mp isCut
    rw [List.append_nil] at text cleaned
    subst text
    rcases left with ⟨_, toCome⟩ | ⟨_, _, isCode, _⟩
    · exact chunkStep_beforeNewline between cleaned running toCome reads
    · exact absurd rfl isCode.begun
  have captured :=
    @captureChunks_shown now done lead (begun ++ cut) chunk rest between.isLead visibly
      cleaned reads
  have shown := between.removeEscapeCharacters_chunk cleaned
  have whole : lines = (seen ++ done) ++ line :: later := by
    rw [between.whole, List.append_assoc]
  have showsEnd :
      ShowsEnd lines (removeEscapeCharacters (read ++ chunk)) ↔
        line.isEnd = true ∧ line.ShowsPids (begun ++ cut) := by
    rw [shown, whole, showsEnd_iff (List.forall_mem_append.mpr ⟨between.running, running⟩)
      (isLeftover.oneLine (newline_notMem_begun text))]
    constructor
    · rintro ⟨other, _, same, isEnd, pids⟩
      obtain rfl := (List.cons.inj same).1
      exact ⟨isEnd, pids⟩
    · rintro ⟨isEnd, pids⟩
      exact ⟨line, later, rfl, isEnd, pids⟩
  by_cases isEnd : line.isEnd = true ∧ line.ShowsPids (begun ++ cut)
  · refine .ends (showsEnd.mpr isEnd) ?_
    rw [captured, captureParts_rows running,
      captureParts_cutRow text begins isLeftover isCut]
    exact .inl isEnd
  · refine .misread (fun ends => isEnd (showsEnd.mp ends)) ?_ ?_
    · rw [shown, whole]
      exact not_standsBetween text begins isLeftover isCut
    · rw [captured, captureParts_rows running,
        captureParts_cutRow text begins isLeftover isCut]
      rintro (shows | ⟨_, rfl, rfl, shows⟩)
      · exact isEnd shows
      · rcases left with ⟨nothing, _⟩ | ⟨missing, raw, isCode, remains, cleans⟩
        · cases nothing
        · exact not_shows_behindEscape nonempty isCode remains cleans _ shows

/-- Every chunk leads to one of the three. -/
theorem chunkStep
    (between : Between lines seen todo lead read (chunk ++ rest.flatten))
    (nonempty : ∀ chunk ∈ rest, chunk ≠ [])
    (reads : Nat) :
    ChunkStep now lines todo read reads chunk rest := by
  obtain ⟨kept, cut, hidden, cleaned, written, left⟩ :
      ∃ kept cut hidden,
        removeEscapeCharacters chunk = kept ++ cut ∧
          lead ++ statsText todo = kept ++ hidden ∧
          (cut = [] ∧ removeEscapeCharacters rest.flatten = hidden ∨
            ∃ missing raw,
              IsCutCode cut missing ∧
                rest.flatten = missing ++ raw ∧
                removeEscapeCharacters raw = hidden) := by
    obtain ⟨kept, cut, cleaned, ⟨none, whole⟩ | ⟨missing, raw, isCut, begins, whole⟩⟩ :=
      removeEscapeCharacters_append between.noEscape_unread
    · exact ⟨kept, cut, _, cleaned, between.toCome ▸ whole, .inl ⟨none, rfl⟩⟩
    · exact ⟨kept, cut, _, cleaned, between.toCome ▸ whole,
        .inr ⟨missing, raw, isCut, begins, rfl⟩⟩
  -- of a code that is left only its beginning matters unless the chunk ends in a line
  have codeOnly {expected : List Char} (same : hidden = expected) :
      cut = [] ∧ removeEscapeCharacters rest.flatten = expected ∨
        ∃ missing, IsCutCode cut missing :=
    left.imp (And.imp_right fun toCome => toCome.trans same)
      fun ⟨missing, _, isCut, _⟩ => ⟨missing, isCut⟩
  rcases List.append_eq_append_iff.mp written with
      ⟨further, rfl, ahead⟩ | ⟨further, isPrefix, remains⟩
  · rw [List.append_assoc] at cleaned
    rcases exists_shown ahead.symm with
        ⟨done, later, rfl, rfl, remains⟩ |
          ⟨done, line, later, begun, behind, rfl, text, begins, rfl, remains⟩
    · exact chunkStep_between between cleaned (codeOnly remains) reads
    · rw [List.append_assoc] at cleaned
      subst remains
      exact chunkStep_within between text begins cleaned nonempty left reads
  · cases further with
    | nil =>
        rw [List.append_nil] at isPrefix
        subst isPrefix
        exact @chunkStep_between _ _ _ [] _ _ _ _ _ _ between cleaned (codeOnly remains) reads
    | cons newline others =>
        rcases between.isLead with rfl | rfl
        · cases (List.append_eq_nil_iff.mp isPrefix.symm).2
        · have nothing : kept = [] ∧ newline :: others = ['\n'] := by
            rcases List.append_eq_singleton_iff.mp isPrefix.symm with same | same
            · exact same
            · cases same.2
          obtain ⟨rfl, isNewline⟩ := nothing
          rw [isNewline] at remains
          exact chunkStep_codes between cleaned (codeOnly remains) reads

/-- The lines to come are captured exactly if the chunks to come are cut at lines. -/
theorem captureChunks_shows_iff
    {chunks : List (List Char)}
    (between : Between lines seen todo lead read chunks.flatten)
    (nonempty : ∀ chunk ∈ chunks, chunk ≠ [])
    (reads : Nat) :
    (captureChunks now reads chunks).Shows todo ↔ CutAtLines lines read chunks := by
  induction chunks generalizing seen todo lead read reads with
  | nil =>
      obtain ⟨rfl, nothing⟩ := List.append_eq_nil_iff.mp between.toCome.symm
      obtain rfl := eq_nil_of_statsText nothing
      exact iff_of_true ⟨rfl, rfl⟩ True.intro
  | cons chunk rest inductionHypothesis =>
      have restNonempty : ∀ chunk ∈ rest, chunk ≠ [] := fun other member =>
        nonempty other (.tail _ member)
      rw [List.flatten_cons] at between
      have step := @chunkStep now _ _ _ _ _ _ _ between restNonempty reads
      cases step with
      | goesOn later same =>
          obtain ⟨stands, notEnd⟩ := later.standsBetween
          rw [same, inductionHypothesis later restNonempty]
          exact ⟨fun cut => .inr ⟨stands, cut⟩, fun cut => (cut.resolve_left notEnd).2⟩
      | ends showsEnd shows =>
          exact iff_of_true shows (.inl showsEnd)
      | misread notEnd notBetween notShown =>
          refine iff_of_false notShown ?_
          rintro (isEnd | ⟨isBetween, _⟩)
          · exact notEnd isEnd
          · exact notBetween isBetween

end Step

/--
Whatever the lines and the chunks are, the metrics of the lines are captured up
to the first end exactly if every chunk that is read before the end shows ends
between two lines, directly after or before a newline.
-/
theorem metricsContinuous_shows_iff
    (now : Nat → Int)
    (lines : List MetricLine)
    (chunks : List (List Char))
    (written : WithCodes (statsText lines) chunks.flatten)
    (nonempty : ∀ chunk ∈ chunks, chunk ≠ []) :
    (DockerEnvHandle.metricsContinuous now (some chunks)).Shows lines ↔
      CutAtLines lines [] chunks := by
  have between : Between lines [] lines [] [] chunks.flatten :=
    ⟨rfl, .inl rfl, rfl, List.forall_mem_nil _,
      (withCodes_iff escape_notMem_statsText).mp written⟩
  exact captureChunks_shows_iff between nonempty 0

/-- A container at work. -/
def busyLine : MetricLine where
  pids := some 12
  mem := "1MiB".toList
  limit := "2GiB".toList
  cpu := "0.05".toList
  printed := List.all_eq_true.mp (by decide)
  noSlash := by decide

/-- A container that has ended. -/
def endedLine : MetricLine where
  pids := none
  mem := "--".toList
  limit := "--".toList
  cpu := "--".toList
  printed := List.all_eq_true.mp (by decide)
  noSlash := by decide

/-- One cut before a newline, one behind the PID count of the end. -/
def cutAtLines : List (List Char) :=
  ["\x1b[2J12\t1MiB / 2GiB\t0.05%".toList, "\n\x1b[H--".toList, "\t-- / --\t--%\n".toList]

theorem metricsContinuous_shows_iff_cutAtLines :
    (DockerEnvHandle.metricsContinuous (fun _ => 0) (some cutAtLines)).Shows
      [busyLine, endedLine] := by
  have written : WithCodes (statsText [busyLine, endedLine]) cutAtLines.flatten :=
    (withCodes_iff escape_notMem_statsText).mpr (by decide)
  refine (metricsContinuous_shows_iff (fun _ => 0) [busyLine, endedLine] cutAtLines
    written (by decide)).mpr ?_
  refine .inr ⟨⟨[busyLine], by simp, .inr (by decide)⟩, .inl ?_⟩
  exact ⟨[busyLine], endedLine, [], "--".toList, rfl, by simp [busyLine, MetricLine.isEnd], rfl,
    by decide, .inl rfl⟩

/-- The only line is cut in its CPU. -/
def cutInCpu : List (List Char) :=
  ["12\t1MiB / 2GiB\t0.0".toList, "5%\n".toList]

/-- The CPU of the line is shortened, and the rest of it is an error. -/
theorem cutInCpu_notShown :
    let captured := DockerEnvHandle.metricsContinuous (fun _ => 0) (some cutInCpu)
    WithCodes (statsText [busyLine]) cutInCpu.flatten ∧
      (∀ chunk ∈ cutInCpu, chunk ≠ []) ∧
      captured.yielded.map CapturedMetric.cpu = ["0.".toList] ∧
      captured.ending =
        .threw (.typeError "Cannot read properties of undefined (reading 'split')") ∧
      ¬ captured.Shows [busyLine] := by
  refine ⟨(withCodes_iff escape_notMem_statsText).mpr (by decide), by decide, by decide,
    by decide, ?_⟩
  rintro ⟨_, ending⟩
  revert ending
  decide

end Prescott
