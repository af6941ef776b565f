import Mathlib.Data.List.DropRight

namespace Prescott

/-!
# POSIX paths

The `path` module of Node on POSIX: `normalize`, `join`, `resolve`, `relative`
and `parse`.  A path is a sequence of characters, and its segments are what
stands between slashes.  A walk enters the segments one after the other.
-/

namespace PosixPath

/-- A part of a path between slashes. -/
abbrev Segment := List Char

/-- The segment that leads to the parent. -/
def parentSegment : Segment := ['.', '.']

/-- `path.isAbsolute` -/
def isAbsolute (path : List Char) : Bool :=
  path.head? == some '/'

/-- The parts of a path between its slashes. -/
def segments (path : List Char) : List Segment :=
  path.splitOn '/'

/-- The path of segments. -/
def text (segments : List Segment) : List Char :=
  ['/'].intercalate segments

/-- Enter a segment from where a walk stands, innermost segment first. -/
def enter
    (allowAboveRoot : Bool)
    (before : List Segment)
    (segment : Segment) : List Segment :=
  if segment = [] ∨ segment = ['.'] then
    before
  else if segment = parentSegment then
    match before with
    | [] => if allowAboveRoot then [parentSegment] else []
    | last :: above =>
        if last = parentSegment then
          if allowAboveRoot then parentSegment :: before else before
        else
          above
  else
    segment :: before

/-- Enter all segments of a path. -/
def walk
    (allowAboveRoot : Bool)
    (start : List Segment)
    (path : List Char) : List Segment :=
  (segments path).foldl (enter allowAboveRoot) start

/-- The segments that normalising keeps, innermost first. -/
def kept (path : List Char) : List Segment :=
  walk (!isAbsolute path) [] path

/-- `path.normalize` -/
def normalize (path : List Char) : List Char :=
  if path = [] then
    ['.']
  else
    let root := if isAbsolute path then ['/'] else []
    let trailing := if path.getLast? = some '/' then ['/'] else []
    let normalized := text (kept path).reverse
    if normalized = [] then
      if isAbsolute path then root else '.' :: trailing
    else
      root ++ normalized ++ trailing

/-- `path.join` -/
def join (paths : List (List Char)) : List Char :=
  let joined := paths.filter (· ≠ [])
  if joined = [] then ['.'] else normalize (text joined)

/-- The segments of a resolved path, innermost first. -/
def resolved (cwd path : List Char) : List Segment :=
  walk false (if isAbsolute path then [] else walk false [] cwd) path

/-- The segments that lead from one resolved path to another. -/
def leading : List Segment → List Segment → List Segment
  | source :: sources, target :: targets =>
      if source = target then
        leading sources targets
      else
        List.replicate (sources.length + 1) parentSegment ++ target :: targets
  | sources, targets =>
      List.replicate sources.length parentSegment ++ targets

/-- `path.relative`; `cwd` is the working directory of the process. -/
def relative (cwd source target : List Char) : List Char :=
  text (leading (resolved cwd source).reverse (resolved cwd target).reverse)

/-- The last segment of a path, slashes at its end aside. -/
def baseName (path : List Char) : Segment :=
  (path.rdropWhile (· == '/')).rtakeWhile (· != '/')

/-- What stands before the slash before the last segment. -/
def directory (path : List Char) : List Char :=
  ((path.rdropWhile (· == '/')).rdropWhile (· != '/')).dropLast

/-- What `path.parse` returns. -/
structure Parsed where
  root : List Char
  dir : List Char
  base : List Char
  ext : List Char
  name : List Char
  deriving Repr, DecidableEq

/-- The name and the extension of a base name. -/
def splitExtension (base : List Char) : List Char × List Char :=
  let stem := base.rdropWhile (· != '.')
  if stem = [] ∨ stem = ['.'] ∨ base = parentSegment then
    (base, [])
  else
    (stem.dropLast, '.' :: base.rtakeWhile (· != '.'))

/-- `path.parse` -/
def parse (path : List Char) : Parsed :=
  let root := if isAbsolute path then ['/'] else []
  let rest := path.drop root.length
  let base := baseName rest
  { root := root
    dir := root ++ directory rest
    base := base
    ext := (splitExtension base).2
    name := (splitExtension base).1 }

/-- A path that resolves to the other one or to a path below of it. -/
def AtOrBelow (cwd directory path : List Char) : Prop :=
  (resolved cwd directory).reverse <+: (resolved cwd path).reverse

example : normalize "src/../../a//./b/".toList = "../a/b/".toList := by
  decide

/-! ## Segments -/

@[simp] theorem segments_append_slash (path rest : List Char) :
    segments (path ++ '/' :: rest) = segments path ++ segments rest :=
  List.splitOn_append_cons_self path rest

@[simp] theorem segments_nil : segments [] = [[]] :=
  List.splitOn_nil '/'

theorem segments_of_notMem {segment : Segment} (noSlash : '/' ∉ segment) :
    segments segment = [segment] :=
  List.splitOn_eq_singleton noSlash

theorem slash_notMem_of_mem_segments
    {path : List Char}
    {segment : Segment}
    (member : segment ∈ segments path) :
    '/' ∉ segment := by
  induction path generalizing segment with
  | nil =>
      simp only [segments_nil, List.mem_singleton] at member
      simp [member]
  | cons char rest inductionHypothesis =>
      by_cases slash : char = '/'
      · subst slash
        have split := segments_append_slash [] rest
        simp only [List.nil_append, segments_nil] at split
        simp only [split, List.cons_append, List.nil_append,
          List.mem_cons] at member
        rcases member with rfl | inRest
        · simp
        · exact inductionHypothesis inRest
      · have split := List.splitOn_cons_eq_if_modifyHead (a := '/') char rest
        rw [if_neg (by simpa using slash)] at split
        unfold segments at member inductionHypothesis
        rw [split] at member
        cases pieces : rest.splitOn '/' with
        | nil =>
            exact absurd pieces (List.splitOn_ne_nil '/' rest)
        | cons first others =>
            simp only [pieces, List.modifyHead_cons, List.mem_cons]
              at member inductionHypothesis
            rcases member with rfl | inOthers
            · simp only [List.mem_cons, not_or]
              exact ⟨Ne.symm slash, inductionHypothesis (.inl rfl)⟩
            · exact inductionHypothesis (.inr inOthers)

theorem segments_text
    {names : List Segment}
    (noSlash : ∀ segment ∈ names, '/' ∉ segment)
    (nonempty : names ≠ []) :
    segments (text names) = names :=
  List.splitOn_intercalate '/' noSlash nonempty

/-! ## Walks -/

section

variable {allowAboveRoot : Bool}
variable {before start : List Segment}
variable {segment : Segment}

@[simp] theorem enter_empty : enter allowAboveRoot before [] = before := by
  simp [enter]

/-- A segment is skipped, leads to the parent, or is put on top. -/
theorem enter_cases
    (allowAboveRoot : Bool)
    (before : List Segment)
    (segment : Segment) :
    enter allowAboveRoot before segment = before ∨
      (segment = parentSegment ∧
        enter allowAboveRoot before segment = before.tail) ∨
      enter allowAboveRoot before segment = segment :: before := by
  unfold enter
  split
  · exact .inl rfl
  split
  next isParent =>
    subst isParent
    cases before with
    | nil => cases allowAboveRoot <;> simp
    | cons last above =>
        simp only
        split
        next same =>
          subst same
          cases allowAboveRoot <;> simp
        next => simp
  next => exact .inr (.inr rfl)

/-- A segment other than `''`, `.` and `..`. -/
def IsName (segment : Segment) : Prop :=
  segment ≠ [] ∧ segment ≠ ['.'] ∧ segment ≠ parentSegment

theorem enter_name (isName : IsName segment) :
    enter allowAboveRoot before segment = segment :: before := by
  simp [enter, isName.1, isName.2.1, isName.2.2]

theorem foldl_enter_names
    {names : List Segment}
    (areNames : ∀ segment ∈ names, IsName segment) :
    names.foldl (enter allowAboveRoot) start = names.reverse ++ start := by
  induction names generalizing start with
  | nil => rfl
  | cons name rest inductionHypothesis =>
      rw [List.foldl_cons, enter_name (areNames name (by simp)),
        inductionHypothesis fun segment member =>
          areNames segment (List.mem_cons_of_mem name member)]
      simp

theorem walk_append_slash (path rest : List Char) :
    walk allowAboveRoot start (path ++ '/' :: rest) =
      walk allowAboveRoot (walk allowAboveRoot start path) rest := by
  simp [walk, List.foldl_append]

theorem walk_slash (rest : List Char) :
    walk allowAboveRoot start ('/' :: rest) =
      walk allowAboveRoot start rest := by
  simpa [walk] using @walk_append_slash allowAboveRoot start [] rest

theorem walk_of_notMem (noSlash : '/' ∉ segment) :
    walk allowAboveRoot start segment =
      enter allowAboveRoot start segment := by
  simp [walk, segments_of_notMem noSlash]

theorem walk_trailing_slash (path : List Char) :
    walk allowAboveRoot start (path ++ ['/']) =
      walk allowAboveRoot start path := by
  rw [walk_append_slash]
  simp [walk]

theorem walk_text
    {names : List Segment}
    (noSlash : ∀ segment ∈ names, '/' ∉ segment) :
    walk allowAboveRoot start (text names) =
      names.foldl (enter allowAboveRoot) start := by
  by_cases empty : names = []
  · subst empty
    simp [walk, text]
  · rw [walk, segments_text noSlash empty]

/-- Every segment was put on top of the segments below of it. -/
def Stands (allowAboveRoot : Bool) : List Segment → Prop
  | [] => True
  | segment :: below =>
      enter allowAboveRoot below segment = segment :: below ∧
        Stands allowAboveRoot below

theorem Stands.enter
    (stands : Stands allowAboveRoot before)
    (segment : Segment) :
    Stands allowAboveRoot (enter allowAboveRoot before segment) := by
  rcases enter_cases allowAboveRoot before segment with
    skipped | ⟨-, above⟩ | pushed
  · rwa [skipped]
  · rw [above]
    cases before with
    | nil => exact stands
    | cons last below => exact stands.2
  · rw [pushed]
    exact ⟨pushed, stands⟩

theorem Stands.foldl
    (stands : Stands allowAboveRoot start)
    (names : List Segment) :
    Stands allowAboveRoot (names.foldl (PosixPath.enter allowAboveRoot) start) := by
  induction names generalizing start with
  | nil => exact stands
  | cons name rest inductionHypothesis =>
      exact inductionHypothesis (stands.enter name)

theorem Stands.kept (path : List Char) :
    Stands (!isAbsolute path) (kept path) :=
  (show Stands (!isAbsolute path) [] from trivial).foldl (segments path)

/-- Segments that stand are reached by entering them. -/
theorem Stands.replay (stands : Stands allowAboveRoot before) :
    before.reverse.foldl (PosixPath.enter allowAboveRoot) [] = before := by
  induction before with
  | nil => rfl
  | cons segment below inductionHypothesis =>
      rw [List.reverse_cons, List.foldl_append, inductionHypothesis stands.2]
      exact stands.1

theorem Stands.isName_or_parent
    {below : List Segment}
    (stands : Stands allowAboveRoot (segment :: below)) :
    IsName segment ∨ segment = parentSegment := by
  have pushed := stands.1
  by_cases isParent : segment = parentSegment
  · exact .inr isParent
  refine .inl ⟨?_, ?_, isParent⟩ <;>
    rintro rfl <;>
    simp [PosixPath.enter] at pushed

theorem Stands.ne_nil_of_mem
    (stands : Stands allowAboveRoot before)
    (member : segment ∈ before) :
    segment ≠ [] := by
  induction before with
  | nil => simp at member
  | cons last below inductionHypothesis =>
      rcases List.mem_cons.1 member with rfl | inBelow
      · rcases stands.isName_or_parent with isName | isParent
        · exact isName.1
        · simp [isParent, parentSegment]
      · exact inductionHypothesis stands.2 inBelow

/-- Walking on over the outcome of a step is walking over the steps. -/
theorem Stands.foldl_enter
    (stands : Stands true before)
    (segment : Segment)
    (start : List Segment) :
    (PosixPath.enter true before segment).reverse.foldl
        (PosixPath.enter false) start =
      PosixPath.enter false
        (before.reverse.foldl (PosixPath.enter false) start) segment := by
  by_cases skipped : segment = [] ∨ segment = ['.']
  · simp only [PosixPath.enter, if_pos skipped]
  by_cases isParent : segment = parentSegment
  · subst isParent
    cases before with
    | nil => rfl
    | cons last above =>
        rcases stands.isName_or_parent with isName | lastIsParent
        · have left : PosixPath.enter true (last :: above) parentSegment =
              above := by
            simp [PosixPath.enter, skipped, isName.2.2]
          rw [left, List.reverse_cons, List.foldl_append, List.foldl_cons,
            List.foldl_nil, enter_name isName]
          simp [PosixPath.enter, skipped, isName.2.2]
        · have pushed : PosixPath.enter true (last :: above) parentSegment =
              parentSegment :: last :: above := by
            simp [PosixPath.enter, skipped, lastIsParent]
          rw [pushed, List.reverse_cons, List.foldl_append]
          rfl
  · have pushed : PosixPath.enter true before segment =
        segment :: before := by
      simp only [PosixPath.enter, if_neg skipped, if_neg isParent]
    rw [pushed, List.reverse_cons, List.foldl_append]
    rfl

theorem foldl_foldl_enter
    (names before start : List Segment)
    (stands : Stands true before) :
    (names.foldl (enter true) before).reverse.foldl (enter false) start =
      names.foldl (enter false)
        (before.reverse.foldl (enter false) start) := by
  induction names generalizing before with
  | nil => rfl
  | cons name rest inductionHypothesis =>
      rw [List.foldl_cons, inductionHypothesis _ (stands.enter name),
        stands.foldl_enter, List.foldl_cons]

theorem mem_of_mem_foldl_enter
    {names : List Segment}
    (member : segment ∈ names.foldl (enter allowAboveRoot) start) :
    segment ∈ names ∨ segment ∈ start := by
  induction names generalizing start with
  | nil => exact .inr member
  | cons name rest inductionHypothesis =>
      rcases inductionHypothesis member with inRest | entered
      · exact .inl (List.mem_cons_of_mem name inRest)
      · rcases enter_cases allowAboveRoot start name with
          skipped | ⟨-, above⟩ | pushed
        · exact .inr (skipped ▸ entered)
        · exact .inr (List.mem_of_mem_tail (above ▸ entered))
        · rw [pushed, List.mem_cons] at entered
          rcases entered with rfl | before
          · exact .inl List.mem_cons_self
          · exact .inr before

theorem slash_notMem_of_mem_kept
    {path : List Char}
    (member : segment ∈ kept path) :
    '/' ∉ segment :=
  slash_notMem_of_mem_segments
    ((mem_of_mem_foldl_enter member).resolve_right (by simp))

end

/-! ## Normalised paths -/

theorem ne_nil_of_mem_kept
    {path : List Char}
    {segment : Segment}
    (member : segment ∈ kept path) :
    segment ≠ [] :=
  (Stands.kept path).ne_nil_of_mem member

theorem text_cons (segment : Segment) (others : List Segment) :
    text (segment :: others) =
      segment ++ if others = [] then [] else '/' :: text others := by
  cases others with
  | nil => simp [text]
  | cons next rest => simp [text, List.intercalate_cons_cons]

theorem text_append_singleton
    {names : List Segment}
    (nonempty : names ≠ [])
    (segment : Segment) :
    text (names ++ [segment]) = text names ++ '/' :: segment := by
  induction names with
  | nil => exact absurd rfl nonempty
  | cons name rest inductionHypothesis =>
      by_cases last : rest = []
      · subst last
        simp [text_cons]
      · simp [text_cons, last, inductionHypothesis last]

theorem text_ne_nil
    {names : List Segment}
    (named : ∀ segment ∈ names, segment ≠ [])
    (nonempty : names ≠ []) :
    text names ≠ [] := by
  cases names with
  | nil => exact absurd rfl nonempty
  | cons first others => simp [text_cons, named first List.mem_cons_self]

theorem text_kept_ne_nil
    {path : List Char}
    (nonempty : kept path ≠ []) :
    text (kept path).reverse ≠ [] :=
  text_ne_nil (fun _ member => ne_nil_of_mem_kept (List.mem_reverse.1 member))
    (mt List.reverse_eq_nil_iff.1 nonempty)

/-- How a path that is not empty is normalised. -/
theorem normalize_of_ne_nil {path : List Char} (nonempty : path ≠ []) :
    normalize path =
      if kept path = [] then
        if isAbsolute path then ['/']
        else '.' :: if path.getLast? = some '/' then ['/'] else []
      else
        (if isAbsolute path then ['/'] else []) ++
          text (kept path).reverse ++
          if path.getLast? = some '/' then ['/'] else [] := by
  by_cases empty : kept path = []
  · simp only [normalize, if_neg nonempty, empty, List.reverse_nil, text,
      List.intercalate_nil, if_true]
    split <;> rfl
  · simp only [normalize, if_neg nonempty, if_neg (text_kept_ne_nil empty),
      if_neg empty]

theorem normalize_congr
    {path other : List Char}
    (pathNonempty : path ≠ [])
    (otherNonempty : other ≠ [])
    (absolute : isAbsolute path = isAbsolute other)
    (same : kept path = kept other)
    (trailing : path.getLast? = some '/' ↔ other.getLast? = some '/') :
    normalize path = normalize other := by
  simp only [normalize_of_ne_nil pathNonempty,
    normalize_of_ne_nil otherNonempty, absolute, same, trailing]

theorem eq_cons_of_isAbsolute
    {path : List Char}
    (absolute : isAbsolute path = true) :
    ∃ rest, path = '/' :: rest := by
  cases path with
  | nil => simp [isAbsolute] at absolute
  | cons char rest =>
      have slash : char = '/' := by simpa [isAbsolute] using absolute
      exact ⟨rest, slash ▸ rfl⟩

theorem isAbsolute_append
    {path : List Char}
    (nonempty : path ≠ [])
    (rest : List Char) :
    isAbsolute (path ++ rest) = isAbsolute path := by
  cases path with
  | nil => exact absurd rfl nonempty
  | cons char chars => rfl

theorem isAbsolute_of_notMem
    {segment : Segment}
    (noSlash : '/' ∉ segment) :
    isAbsolute segment = false := by
  cases segment with
  | nil => rfl
  | cons char chars =>
      simp only [List.mem_cons, not_or] at noSlash
      simpa [isAbsolute] using Ne.symm noSlash.1

theorem isAbsolute_text
    {names : List Segment}
    (noSlash : ∀ segment ∈ names, '/' ∉ segment)
    (named : ∀ segment ∈ names, segment ≠ []) :
    isAbsolute (text names) = false := by
  cases names with
  | nil => rfl
  | cons first others =>
      rw [text_cons, isAbsolute_append (named first List.mem_cons_self)]
      exact isAbsolute_of_notMem (noSlash first List.mem_cons_self)

theorem isAbsolute_text_kept (path : List Char) :
    isAbsolute (text (kept path).reverse) = false :=
  isAbsolute_text
    (fun _ member => slash_notMem_of_mem_kept (List.mem_reverse.1 member))
    fun _ member => ne_nil_of_mem_kept (List.mem_reverse.1 member)

@[simp] theorem isAbsolute_normalize (path : List Char) :
    isAbsolute (normalize path) = isAbsolute path := by
  by_cases nonempty : path = []
  · subst nonempty
    rfl
  rw [normalize_of_ne_nil nonempty]
  cases absolute : isAbsolute path with
  | true => split <;> rfl
  | false =>
      split
      next => rfl
      next keeps =>
        simp only [Bool.false_eq_true, if_false, List.nil_append]
        rw [isAbsolute_append (text_kept_ne_nil keeps), isAbsolute_text_kept]

/-- Walking through a normalised path is entering the segments it keeps. -/
theorem walk_normalize
    (allowAboveRoot : Bool)
    (start : List Segment)
    (path : List Char) :
    walk allowAboveRoot start (normalize path) =
      (kept path).reverse.foldl (enter allowAboveRoot) start := by
  have walkText : walk allowAboveRoot start (text (kept path).reverse) =
      (kept path).reverse.foldl (enter allowAboveRoot) start :=
    walk_text fun segment member =>
      slash_notMem_of_mem_kept (List.mem_reverse.1 member)
  by_cases nonempty : path = []
  · subst nonempty
    rfl
  rw [normalize_of_ne_nil nonempty]
  split
  next keepsNone =>
    rw [keepsNone]
    split
    · rfl
    · split <;> rfl
  next =>
    have trailed : ∀ text : List Char,
        walk allowAboveRoot start
            (text ++ if path.getLast? = some '/' then ['/'] else []) =
          walk allowAboveRoot start text := by
      intro text
      split
      · exact walk_trailing_slash text
      · rw [List.append_nil]
    rw [trailed]
    split
    · exact (walk_slash _).trans walkText
    · exact walkText

@[simp] theorem kept_normalize (path : List Char) :
    kept (normalize path) = kept path := by
  rw [kept, isAbsolute_normalize, walk_normalize]
  exact (Stands.kept path).replay

theorem normalize_ne_nil (path : List Char) : normalize path ≠ [] := by
  by_cases nonempty : path = []
  · subst nonempty
    decide
  rw [normalize_of_ne_nil nonempty]
  split
  · split <;> simp
  next keeps => simp [text_kept_ne_nil keeps]

theorem getLast?_append_slash
    {path segment : List Char}
    (nonempty : segment ≠ []) :
    (path ++ '/' :: segment).getLast? = segment.getLast? := by
  rw [List.getLast?_append_cons, List.getLast?_cons]
  cases segment with
  | nil => exact absurd rfl nonempty
  | cons char chars => simp [List.getLast?_cons]

theorem getLast?_ne_slash
    {segment : Segment}
    (noSlash : '/' ∉ segment) :
    segment.getLast? ≠ some '/' :=
  fun last => noSlash (List.mem_of_getLast? last)

/-- The last character of segments is the one of the last segment. -/
theorem getLast?_text_ne_slash
    {names : List Segment}
    (noSlash : ∀ segment ∈ names, '/' ∉ segment)
    (nonempty : ∀ segment ∈ names, segment ≠ []) :
    (text names).getLast? ≠ some '/' := by
  rcases List.eq_nil_or_concat names with rfl | ⟨front, last, rfl⟩
  · simp [text]
  rw [List.concat_eq_append] at noSlash nonempty ⊢
  have lastNoSlash := getLast?_ne_slash (noSlash last (by simp))
  by_cases alone : front = []
  · subst alone
    simpa [text_cons] using lastNoSlash
  · rw [text_append_singleton alone,
      getLast?_append_slash (nonempty last (by simp))]
    exact lastNoSlash

@[simp] theorem normalize_normalize (path : List Char) :
    normalize (normalize path) = normalize path := by
  by_cases nonempty : path = []
  · subst nonempty
    decide
  by_cases keepsNone : kept path = []
  · have short := normalize_of_ne_nil nonempty
    rw [if_pos keepsNone] at short
    rw [short]
    split
    · decide
    · split <;> decide
  refine normalize_congr (normalize_ne_nil path) nonempty
    (isAbsolute_normalize path) (kept_normalize path) ?_
  have normalized := normalize_of_ne_nil nonempty
  rw [if_neg keepsNone] at normalized
  rw [normalized]
  by_cases trailing : path.getLast? = some '/'
  · simp [trailing]
  · have last : (text (kept path).reverse).getLast? ≠ some '/' :=
      getLast?_text_ne_slash
        (fun _ member =>
          slash_notMem_of_mem_kept (List.mem_reverse.1 member))
        fun _ member => ne_nil_of_mem_kept (List.mem_reverse.1 member)
    rw [if_neg trailing, List.append_nil,
      List.getLast?_append_of_ne_nil _ (text_kept_ne_nil keepsNone)]
    exact iff_of_false last trailing

/-- A path that goes on from another one keeps what both keep. -/
theorem kept_append_slash
    {path : List Char}
    (nonempty : path ≠ [])
    (rest : List Char) :
    kept (path ++ '/' :: rest) =
      walk (!isAbsolute path) (kept path) rest := by
  rw [kept, isAbsolute_append nonempty, walk_append_slash]
  rfl

/-- Only the outcome of normalising the front of a path matters. -/
theorem normalize_append_slash
    {path : List Char}
    (nonempty : path ≠ [])
    (rest : List Char) :
    normalize (normalize path ++ '/' :: rest) =
      normalize (path ++ '/' :: rest) := by
  refine normalize_congr (by simp) (by simp) ?_ ?_ ?_
  · rw [isAbsolute_append (normalize_ne_nil path),
      isAbsolute_append nonempty, isAbsolute_normalize]
  · rw [kept_append_slash (normalize_ne_nil path),
      kept_append_slash nonempty, isAbsolute_normalize, kept_normalize]
  · rw [List.getLast?_append_cons, List.getLast?_append_cons]

/-! ## Joined paths -/

theorem join_pair
    (path : List Char)
    {other : List Char}
    (nonempty : other ≠ []) :
    join [path, other] =
      normalize (if path = [] then other else path ++ '/' :: other) := by
  by_cases empty : path = [] <;>
    simp [join, text, empty, nonempty]

theorem join_of_ne_nil
    {path other : List Char}
    (pathNonempty : path ≠ [])
    (nonempty : other ≠ []) :
    join [path, other] = normalize (path ++ '/' :: other) := by
  rw [join_pair path nonempty, if_neg pathNonempty]

theorem normalize_join (paths : List (List Char)) :
    normalize (join paths) = join paths := by
  rw [join]
  split
  · decide
  · exact normalize_normalize _

/-- Joining can be done in two steps. -/
theorem join_join
    (path : List Char)
    {other last : List Char}
    (otherNonempty : other ≠ [])
    (lastNonempty : last ≠ []) :
    join [join [path, other], last] = join [path, other, last] := by
  have joined : (if path = [] then other else path ++ '/' :: other) ≠ [] := by
    split
    · exact otherNonempty
    · simp
  rw [join_pair path otherNonempty,
    join_of_ne_nil (normalize_ne_nil _) lastNonempty,
    normalize_append_slash joined]
  by_cases empty : path = [] <;>
    simp [join, text, empty, otherNonempty, lastNonempty]

/-! ## Resolved paths -/

/-- Normalising a path does not change what it resolves to. -/
@[simp] theorem resolved_normalize (cwd path : List Char) :
    resolved cwd (normalize path) = resolved cwd path := by
  rw [resolved, resolved, isAbsolute_normalize, walk_normalize]
  cases absolute : isAbsolute path with
  | true =>
      have stands := Stands.kept path
      have keeps : kept path = walk false [] path := by
        simp [kept, absolute]
      rw [absolute, Bool.not_true] at stands
      simp only [if_true]
      rw [stands.replay, keeps]
  | false =>
      have keeps : kept path = walk true [] path := by
        simp [kept, absolute]
      rw [keeps]
      exact foldl_foldl_enter (segments path) [] _ trivial

theorem resolved_append_slash
    {path : List Char}
    (nonempty : path ≠ [])
    (cwd rest : List Char) :
    resolved cwd (path ++ '/' :: rest) =
      walk false (resolved cwd path) rest := by
  rw [resolved, isAbsolute_append nonempty, walk_append_slash]
  rfl

/-! ## Relative paths -/

theorem leading_append (names rest : List Segment) :
    leading names (names ++ rest) = rest := by
  induction names with
  | nil => cases rest <;> simp [leading]
  | cons name names inductionHypothesis =>
      simpa [leading] using inductionHypothesis

/-- A path starts with two dots when its first segment does. -/
theorem parent_prefix_text_cons
    (first : Segment)
    (others : List Segment) :
    parentSegment <+: text (first :: others) ↔ parentSegment <+: first := by
  rw [text_cons]
  constructor
  · intro starts
    match first with
    | [] | [_] =>
        split at starts <;>
          simp [parentSegment, List.cons_prefix_cons] at starts
    | one :: two :: rest =>
        simpa [parentSegment, List.cons_prefix_cons] using starts
  · exact fun starts => starts.trans (List.prefix_append first _)

theorem parent_prefix_replicate
    (count : Nat)
    (rest : List Segment) :
    parentSegment <+:
      text (List.replicate (count + 1) parentSegment ++ rest) :=
  (parent_prefix_text_cons _ _).mpr List.prefix_rfl

/-- What does not lead above the source leads below of it. -/
theorem leading_below
    {sources targets : List Segment}
    (below : ¬ parentSegment <+: text (leading sources targets)) :
    ∃ rest, targets = sources ++ rest ∧
      ∀ first ∈ rest.head?, ¬ parentSegment <+: first := by
  induction sources, targets using leading.induct with
  | case1 source sources targets inductionHypothesis =>
      simp only [leading, if_true] at below
      obtain ⟨rest, split, first⟩ := inductionHypothesis below
      exact ⟨rest, by simp [split], first⟩
  | case2 source sources target targets different =>
      rw [leading, if_neg different] at below
      exact absurd (parent_prefix_replicate sources.length _) below
  | case3 sources targets apart =>
      cases sources with
      | nil =>
          cases targets with
          | nil => exact ⟨[], rfl, by simp⟩
          | cons first rest =>
              refine ⟨first :: rest, rfl, ?_⟩
              simp only [leading, List.length_nil, List.replicate_zero,
                List.nil_append, parent_prefix_text_cons] at below
              simpa using below
      | cons source sources =>
          cases targets with
          | nil =>
              refine absurd (parent_prefix_replicate sources.length []) ?_
              simpa [leading] using below
          | cons target targets => exact (apart _ _ _ _ rfl rfl).elim

/-! ## Parsed paths -/

section

variable {char : Char}
variable {front last : List Char}

theorem rdropWhile_append_cons (notMem : char ∉ last) :
    (front ++ char :: last).rdropWhile (· != char) = front ++ [char] := by
  have dropped : ∀ other ∈ last.reverse, (other != char) = true := by
    intro other member
    simpa using
      fun same : other = char => notMem (same ▸ List.mem_reverse.1 member)
  rw [List.rdropWhile, List.reverse_append, List.reverse_cons,
    List.append_assoc, List.dropWhile_append_of_pos dropped]
  simp

theorem rtakeWhile_append_cons (notMem : char ∉ last) :
    (front ++ char :: last).rtakeWhile (· != char) = last := by
  have split := List.rdropWhile_append_rtakeWhile
    (p := (· != char)) (l := front ++ char :: last)
  rw [rdropWhile_append_cons notMem] at split
  simpa using split

/-- A text without the character, or what stands around the last one. -/
theorem lastCut_cases (char : Char) (chars : List Char) :
    (chars.rdropWhile (· != char) = [] ∧
        chars.rtakeWhile (· != char) = chars) ∨
      ∃ front last, chars = front ++ char :: last ∧ char ∉ last := by
  by_cases member : char ∈ chars
  · obtain ⟨rest, front, split, notMem⟩ :=
      List.eq_append_cons_of_mem (List.mem_reverse.2 member)
    refine .inr ⟨front.reverse, rest.reverse, ?_, by simpa using notMem⟩
    simpa using congrArg List.reverse split
  · have all : ∀ other ∈ chars, (other != char) = true := by
      intro other inChars
      simpa using fun same : other = char => member (same ▸ inChars)
    exact .inl
      ⟨List.rdropWhile_eq_nil_iff.2 all, List.rtakeWhile_eq_self_iff.2 all⟩

end

theorem slash_notMem_baseName (path : List Char) :
    '/' ∉ baseName path :=
  fun member => by simpa using List.mem_rtakeWhile_imp member

theorem walk_rdropWhile
    (allowAboveRoot : Bool)
    (start : List Segment)
    (path : List Char) :
    walk allowAboveRoot start (path.rdropWhile (· == '/')) =
      walk allowAboveRoot start path := by
  induction path using List.reverseRecOn with
  | nil => rfl
  | append_singleton front char inductionHypothesis =>
      by_cases slash : char = '/'
      · subst slash
        rw [List.rdropWhile_concat_pos _ _ _ (by simp), inductionHypothesis,
          walk_trailing_slash]
      · rw [List.rdropWhile_concat_neg _ _ _ (by simpa using slash)]

/-- A path leads to its last segment from its directory. -/
theorem walk_baseName
    (allowAboveRoot : Bool)
    (start : List Segment)
    (path : List Char) :
    walk allowAboveRoot start path =
      enter allowAboveRoot (walk allowAboveRoot start (directory path))
        (baseName path) := by
  have noSlash := slash_notMem_baseName path
  rw [← walk_rdropWhile, baseName, directory] at *
  rcases lastCut_cases '/' (path.rdropWhile (· == '/')) with
    ⟨noParent, whole⟩ | ⟨front, last, split, notMem⟩
  · rw [whole] at noSlash ⊢
    rw [noParent, walk_of_notMem noSlash]
    simp [walk]
  · rw [split, rdropWhile_append_cons notMem, rtakeWhile_append_cons notMem,
      walk_append_slash, walk_of_notMem notMem, List.dropLast_concat]

theorem directory_prefix (path : List Char) : directory path <+: path :=
  (List.dropLast_prefix _).trans
    ((List.rdropWhile_prefix _ _).trans (List.rdropWhile_prefix _ _))

theorem isAbsolute_directory
    {path : List Char}
    (isRelative : isAbsolute path = false) :
    isAbsolute (directory path) = false := by
  obtain ⟨rest, split⟩ := directory_prefix path
  by_cases empty : directory path = []
  · rw [empty]
    rfl
  · rw [← isAbsolute_append empty rest, split]
    exact isRelative

/-- What a path resolves to stands in what its directory resolves to. -/
theorem resolved_parse (cwd path : List Char) :
    resolved cwd path =
      enter false (resolved cwd (parse path).dir) (parse path).base := by
  cases absolute : isAbsolute path with
  | true =>
      obtain ⟨rest, rfl⟩ := eq_cons_of_isAbsolute absolute
      have dirAbsolute : isAbsolute ('/' :: directory rest) = true := rfl
      simp only [parse, absolute, if_true, List.length_singleton,
        List.drop_one, List.tail_cons, List.singleton_append, resolved,
        dirAbsolute, walk_slash]
      exact walk_baseName false [] rest
  | false =>
      simp only [parse, absolute, Bool.false_eq_true, if_false,
        List.length_nil, List.drop_zero, List.nil_append, resolved,
        isAbsolute_directory absolute]
      exact walk_baseName false _ path

theorem rdropWhile_slash
    {base : Segment}
    (noSlash : '/' ∉ base)
    (nonempty : base ≠ [])
    (front : List Char) :
    (front ++ base).rdropWhile (· == '/') = front ++ base := by
  refine List.rdropWhile_eq_self_iff.2 fun _ => ?_
  rw [List.getLast_append_of_ne_nil _ nonempty]
  intro slash
  have last : base.getLast nonempty = '/' := by simpa using slash
  exact noSlash (last ▸ List.getLast_mem nonempty)

theorem directory_append_slash
    {base : Segment}
    (noSlash : '/' ∉ base)
    (nonempty : base ≠ [])
    (dir : List Char) :
    directory (dir ++ '/' :: base) = dir := by
  have whole := rdropWhile_slash noSlash nonempty (dir ++ ['/'])
  rw [List.append_assoc, List.singleton_append] at whole
  rw [directory, whole, rdropWhile_append_cons noSlash, List.dropLast_concat]

theorem baseName_append_slash
    {base : Segment}
    (noSlash : '/' ∉ base)
    (nonempty : base ≠ [])
    (dir : List Char) :
    baseName (dir ++ '/' :: base) = base := by
  have whole := rdropWhile_slash noSlash nonempty (dir ++ ['/'])
  rw [List.append_assoc, List.singleton_append] at whole
  rw [baseName, whole, rtakeWhile_append_cons noSlash]

/-- A path parses into the directory and the base name it is written with. -/
theorem parse_append_slash
    {dir : List Char}
    {base : Segment}
    (dirNonempty : dir ≠ [])
    (noSlash : '/' ∉ base)
    (nonempty : base ≠ []) :
    (parse (dir ++ '/' :: base)).dir = dir ∧
      (parse (dir ++ '/' :: base)).base = base := by
  cases absolute : isAbsolute dir with
  | true =>
      obtain ⟨rest, rfl⟩ := eq_cons_of_isAbsolute absolute
      have pathAbsolute :
          isAbsolute ('/' :: (rest ++ '/' :: base)) = true := rfl
      simp [parse, pathAbsolute, directory_append_slash noSlash nonempty,
        baseName_append_slash noSlash nonempty]
  | false =>
      simp [parse, isAbsolute_append dirNonempty, absolute,
        directory_append_slash noSlash nonempty,
        baseName_append_slash noSlash nonempty]

/-- A base name with an extension is a name followed by it. -/
theorem splitExtension_ext
    {base : List Char}
    (hasExtension : (splitExtension base).2 ≠ []) :
    base = (splitExtension base).1 ++ (splitExtension base).2 ∧
      (splitExtension base).1 ≠ [] := by
  rcases lastCut_cases '.' base with
    ⟨noDot, -⟩ | ⟨front, last, split, notMem⟩
  · simp [splitExtension, noDot] at hasExtension
  · subst split
    simp only [splitExtension, rdropWhile_append_cons notMem,
      rtakeWhile_append_cons notMem, List.dropLast_concat] at hasExtension ⊢
    split at hasExtension
    next => simp at hasExtension
    next named =>
      rw [if_neg named]
      refine ⟨rfl, fun empty => named (.inr (.inl ?_))⟩
      rw [show front = [] from empty]
      rfl

theorem splitExtension_append_dot
    {name last : List Char}
    (nonempty : name ≠ [])
    (notMem : '.' ∉ last)
    (lastNonempty : last ≠ []) :
    splitExtension (name ++ '.' :: last) = (name, '.' :: last) := by
  have notParent : name ++ '.' :: last ≠ parentSegment := by
    intro same
    refine notMem (List.mem_of_getLast? (a := '.') ?_)
    have ends := congrArg List.getLast? same
    rw [List.getLast?_append_cons, List.getLast?_cons] at ends
    cases last with
    | nil => exact absurd rfl lastNonempty
    | cons char chars => simpa [parentSegment, List.getLast?_cons] using ends
  simp [splitExtension, rdropWhile_append_cons notMem,
    rtakeWhile_append_cons notMem, nonempty, notParent]

theorem parse_name (path : List Char) :
    (parse path).name = (splitExtension (parse path).base).1 :=
  rfl

theorem parse_ext (path : List Char) :
    (parse path).ext = (splitExtension (parse path).base).2 :=
  rfl

theorem isName_of_ext
    {base : List Char}
    (hasExtension : (splitExtension base).2 ≠ []) :
    IsName base := by
  refine ⟨?_, ?_, ?_⟩ <;>
    rintro rfl <;>
    exact hasExtension (by decide)

theorem resolved_join_name
    (cwd dir : List Char)
    {name : Segment}
    (noSlash : '/' ∉ name)
    (nonempty : name ≠ []) :
    resolved cwd (join [dir, name]) = enter false (resolved cwd dir) name := by
  rw [join_pair dir nonempty, resolved_normalize]
  split
  next empty =>
    subst empty
    rw [resolved, isAbsolute_of_notMem noSlash, walk_of_notMem noSlash]
    simp [resolved, isAbsolute, walk]
  next dirNonempty =>
    rw [resolved_append_slash dirNonempty, walk_of_notMem noSlash]

/-- A module below of a directory stays there without its extension, though
the name that is left can be the one of the parent. -/
theorem atOrBelow_join_name
    {cwd directory path : List Char}
    (accepted : ¬ parentSegment <+: relative cwd directory path)
    (hasExtension : (parse path).ext ≠ [])
    (directoryName :
      ∀ name ∈ (resolved cwd directory).head?, (splitExtension name).2 = []) :
    AtOrBelow cwd directory (join [(parse path).dir, (parse path).name]) := by
  obtain ⟨rest, below, first⟩ := leading_below accepted
  have noSlash : '/' ∉ (parse path).base := slash_notMem_baseName _
  rw [parse_ext] at hasExtension
  have isName := isName_of_ext hasExtension
  obtain ⟨named, nonempty⟩ := splitExtension_ext hasExtension
  rw [← parse_name] at named nonempty
  rw [resolved_parse, enter_name isName, List.reverse_cons] at below
  have nameNoSlash : '/' ∉ (parse path).name := fun member =>
    noSlash (named ▸ List.mem_append_left _ member)
  rw [AtOrBelow, resolved_join_name cwd _ nameNoSlash nonempty]
  rcases List.eq_nil_or_concat rest with rfl | ⟨front, last, rfl⟩
  · -- The path is the directory itself, whose name has no extension.
    rw [List.append_nil, ← List.reverse_cons, List.reverse_inj] at below
    exact absurd (directoryName _ (by simp [← below])) hasExtension
  rw [List.concat_eq_append] at below first
  rw [← List.append_assoc] at below
  obtain ⟨inside, same⟩ := List.append_inj' below rfl
  obtain rfl := List.singleton_injective same
  rcases enter_cases false (resolved cwd (parse path).dir)
    (parse path).name with skipped | ⟨isParent, above⟩ | pushed
  · rw [skipped, inside]
    exact List.prefix_append _ front
  · have deeper : front ≠ [] := by
      rintro rfl
      refine first (parse path).base rfl ?_
      rw [named, isParent]
      exact List.prefix_append _ _
    rw [above, ← List.dropLast_reverse, inside,
      List.dropLast_append_of_ne_nil deeper]
    exact List.prefix_append _ front.dropLast
  · rw [pushed, List.reverse_cons, inside, List.append_assoc]
    exact List.prefix_append _ _

/-- The directory of a normalised path keeps all but the last segment. -/
theorem parse_normalize
    {path : List Char}
    {base : Segment}
    {below : List Segment}
    (keeps : kept path = base :: below)
    (deep : below ≠ [])
    (noTrailing : path.getLast? ≠ some '/') :
    (parse (normalize path)).base = base ∧
      isAbsolute (parse (normalize path)).dir = isAbsolute path ∧
      kept (parse (normalize path)).dir = below ∧
      (parse (normalize path)).dir ≠ [] := by
  have inKept : ∀ segment ∈ below.reverse, segment ∈ kept path :=
    fun segment member => by simp_all
  have named := fun segment member =>
    ne_nil_of_mem_kept (inKept segment member)
  have noSlash := fun segment member =>
    slash_notMem_of_mem_kept (inKept segment member)
  have baseInKept : base ∈ kept path := keeps ▸ List.mem_cons_self
  have nonempty : path ≠ [] := by
    rintro rfl
    simp [kept, walk] at keeps
  have frontNonempty : text below.reverse ≠ [] :=
    text_ne_nil named (mt List.reverse_eq_nil_iff.1 deep)
  have stands := Stands.kept path
  rw [keeps] at stands
  obtain ⟨dir, dirText⟩ : ∃ dir,
      dir = (if isAbsolute path then ['/'] else []) ++ text below.reverse :=
    ⟨_, rfl⟩
  have dirNonempty : dir ≠ [] := by simp [dirText, frontNonempty]
  have dirAbsolute : isAbsolute dir = isAbsolute path := by
    cases absolute : isAbsolute path <;>
      simp [dirText, absolute, isAbsolute_text noSlash named]
    rfl
  have dirWalk : walk (!isAbsolute path) [] dir = below := by
    have frontWalk : walk (!isAbsolute path) [] (text below.reverse) =
        below :=
      (walk_text noSlash).trans stands.2.replay
    rw [dirText]
    split
    · exact (walk_slash _).trans frontWalk
    · exact frontWalk
  have split : normalize path = dir ++ '/' :: base := by
    rw [normalize_of_ne_nil nonempty, if_neg (by simp [keeps]),
      if_neg noTrailing, List.append_nil, keeps, List.reverse_cons,
      text_append_singleton (mt List.reverse_eq_nil_iff.1 deep), dirText,
      List.append_assoc]
  obtain ⟨parsedDir, parsedBase⟩ := parse_append_slash dirNonempty
    (slash_notMem_of_mem_kept baseInKept) (ne_nil_of_mem_kept baseInKept)
  rw [split, parsedDir, kept, dirAbsolute]
  exact ⟨parsedBase, rfl, dirWalk, dirNonempty⟩

/-! ## The characters and the segments of joined paths -/

/-- The characters of a path are those of its segments. -/
theorem exists_mem_of_mem_text
    {char : Char}
    {segments : List Segment}
    (member : char ∈ text segments) :
    char = '/' ∨ ∃ segment ∈ segments, char ∈ segment := by
  induction segments with
  | nil => cases member
  | cons segment others inductionHypothesis =>
      rw [text_cons, List.mem_append] at member
      rcases member with isFirst | isLater
      · exact .inr ⟨segment, by simp, isFirst⟩
      · split at isLater
        · cases isLater
        · rcases List.mem_cons.mp isLater with slash | inOthers
          · exact .inl slash
          · rcases inductionHypothesis inOthers with slash | ⟨other, listed, inOther⟩
            · exact .inl slash
            · exact .inr ⟨other, List.mem_cons_of_mem _ listed, inOther⟩

theorem mem_of_mem_segments
    {char : Char}
    {segment : Segment}
    {path : List Char}
    (listed : segment ∈ segments path)
    (member : char ∈ segment) :
    char ∈ path := by
  have joined : text (segments path) = path := List.intercalate_splitOn '/'
  rw [← joined]
  generalize segments path = all at listed
  induction all with
  | nil => cases listed
  | cons first others inductionHypothesis =>
      rw [text_cons, List.mem_append]
      rcases List.mem_cons.mp listed with rfl | inOthers
      · exact .inl member
      · rw [if_neg (List.ne_nil_of_mem inOthers)]
        exact .inr (List.mem_cons_of_mem _ (inductionHypothesis inOthers))

/-- Normalising brings no characters but slashes and dots. -/
theorem mem_of_mem_normalize
    {char : Char}
    {path : List Char}
    (member : char ∈ normalize path) :
    char ∈ path ∨ char = '/' ∨ char = '.' := by
  have ofKept : char ∈ text (kept path).reverse → char ∈ path ∨ char = '/' := by
    intro inKept
    rcases exists_mem_of_mem_text inKept with slash | ⟨segment, listed, inSegment⟩
    · exact .inr slash
    · have isSegment : segment ∈ segments path :=
        (mem_of_mem_foldl_enter (List.mem_reverse.mp listed)).resolve_right (by simp)
      exact .inl (mem_of_mem_segments isSegment inSegment)
  have ofRoot (condition : Prop) [Decidable condition] :
      char ∈ (if condition then ['/'] else []) → char = '/' := by
    split <;> simp
  rw [normalize] at member
  split at member
  · exact .inr (.inr (List.mem_singleton.mp member))
  · simp only at member
    split at member
    · split at member
      next isRoot => exact .inr (.inl (by simpa [isRoot] using member))
      next =>
        rcases List.mem_cons.mp member with dot | trailing
        · exact .inr (.inr dot)
        · exact .inr (.inl (ofRoot _ trailing))
    · rcases List.mem_append.mp member with before | trailing
      · rcases List.mem_append.mp before with root | inKept
        · exact .inr (.inl (ofRoot _ root))
        · rcases ofKept inKept with inPath | slash
          · exact .inl inPath
          · exact .inr (.inl slash)
      · exact .inr (.inl (ofRoot _ trailing))

theorem mem_of_mem_join
    {char : Char}
    {paths : List (List Char)}
    (member : char ∈ join paths) :
    (∃ path ∈ paths, char ∈ path) ∨ char = '/' ∨ char = '.' := by
  rw [join] at member
  split at member
  · exact .inr (.inr (List.mem_singleton.mp member))
  · rcases mem_of_mem_normalize member with inText | special
    · rcases exists_mem_of_mem_text inText with slash | ⟨path, listed, inPath⟩
      · exact .inr (.inl slash)
      · exact .inl ⟨path, List.mem_of_mem_filter listed, inPath⟩
    · exact .inr special

theorem join_ne_nil (paths : List (List Char)) : join paths ≠ [] := by
  rw [join]
  split
  · simp
  · exact normalize_ne_nil _

/-- Names that are joined to a path lead on from where it leads. -/
theorem resolved_join_names
    (cwd path : List Char)
    {names : List Segment}
    (nonempty : names ≠ [])
    (areNames : ∀ segment ∈ names, IsName segment)
    (noSlash : ∀ segment ∈ names, '/' ∉ segment) :
    resolved cwd (join (path :: names)) = names.reverse ++ resolved cwd path := by
  have kept : names.filter (· ≠ []) = names :=
    List.filter_eq_self.mpr fun segment listed => by simpa using (areNames segment listed).1
  have entered (start : List Segment) : walk false start (text names) = names.reverse ++ start :=
    (walk_text noSlash).trans (foldl_enter_names areNames)
  by_cases empty : path = []
  · have joined : join (path :: names) = normalize (text names) := by
      rw [join, List.filter_cons_of_neg (by simpa using empty), kept]
      exact if_neg nonempty
    have relative := isAbsolute_text noSlash fun segment listed => (areNames segment listed).1
    rw [joined, resolved_normalize, resolved, relative, empty]
    simpa [resolved, isAbsolute, walk] using entered (walk false [] cwd)
  · have joined : join (path :: names) = normalize (path ++ '/' :: text names) := by
      rw [join, List.filter_cons_of_pos (by simpa using empty), kept]
      simp [text_cons, nonempty]
    rw [joined, resolved_normalize, resolved_append_slash empty, entered]

end PosixPath

end Prescott
