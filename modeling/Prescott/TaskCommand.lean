import Prescott.ShellCommands
import Prescott.Utf8Decoding
import Prescott.TaskWorld

namespace Prescott

/-!
# The command of a task

The steps of a task become one line for the shell of its container, whose
connectives stand before the step that they were chosen by.  So
`ignoreFailure` protects a step from the failures before it, and not the steps
after it from its own.
-/

/-- The part of `CommandBuilder` that the modelled commands are built with. -/
structure CommandBuilder where
  command : String
  deriving Repr, DecidableEq

namespace CommandBuilder

/-- A command to begin with. -/
def init (command : String) : CommandBuilder where
  command := command

/-- Another command, when this one succeeds. -/
def chain (builder : CommandBuilder) (command : String) : CommandBuilder where
  command := builder.command ++ " && " ++ command

/-- A parameter as it stands. -/
def withParam (builder : CommandBuilder) (param : String) : CommandBuilder where
  command := builder.command ++ " " ++ param

/-- A value that is absent or empty is left out. -/
def param (builder : CommandBuilder) (name : String) (value : Option String) :
    CommandBuilder where
  command :=
    builder.command ++ " --" ++ name ++
      match value with
      | some value => if value.isEmpty then "" else "=" ++ value
      | none => ""

/-- Another command, whether this one succeeds or not. -/
def thenCommand (builder : CommandBuilder) (command : String) : CommandBuilder where
  command := builder.command ++ " ;" ++ command

/-- The line that has been built. -/
def build (builder : CommandBuilder) : String :=
  builder.command

end CommandBuilder

/-- The six bits of a character, in either of the two alphabets. -/
def base64Value (char : Char) : Option Nat :=
  if char.isUpper then
    some (char.toNat - 'A'.toNat)
  else if char.isLower then
    some (char.toNat - 'a'.toNat + 26)
  else if char.isDigit then
    some (char.toNat - '0'.toNat + 52)
  else
    match char with
    | '+' | '-' => some 62
    | '/' | '_' => some 63
    | _ => none

/-- Four values make three bytes; a value that is left alone makes none. -/
def base64Bytes : List Nat → List UInt8
  | first :: second :: third :: fourth :: rest =>
      .ofNat (first * 4 + second / 16) :: .ofNat (second * 16 + third / 4) ::
        .ofNat (third * 64 + fourth) :: base64Bytes rest
  | [first, second, third] =>
      [.ofNat (first * 4 + second / 16), .ofNat (second * 16 + third / 4)]
  | [first, second] => [.ofNat (first * 4 + second / 16)]
  | _ => []

/-- The digits before the padding; characters outside of the alphabets are skipped. -/
def base64Values (encoded : List Char) : List Nat :=
  (encoded.takeWhile (· != '=')).filterMap base64Value

/-- The bytes that are encoded, read as UTF-8. -/
def decodeBase64 (encoded : String) : String :=
  String.ofList (Utf8.decode (base64Bytes (base64Values encoded.toList)))

example : decodeBase64 "ZWNobyBoZWxsbw==" = "echo hello" := by
  decide +kernel

/-- `ignoreFailure`, which is `false` by default. -/
def TaskStep.ignores (step : TaskStep) : Bool :=
  step.ignoreFailure.getD false

/-- The command line of a task: its steps after an `echo` of the separator. -/
def buildTaskCmd (separator : String) (steps : List TaskStep) : String :=
  let command := (CommandBuilder.init "echo").withParam separator
  let command := steps.foldl
    (fun command step =>
      let scriptParsed := decodeBase64 step.script
      if step.ignores then
        command.thenCommand scriptParsed
      else
        command.chain scriptParsed)
    command
  command.build

/-- A step's script as a command, after the connective the step chooses. -/
def TaskStep.joins (step : TaskStep) : Shell.Connective × List Char where
  fst := if step.ignores then .sequence else .andThen
  snd := (decodeBase64 step.script).toList

/-- A step is written after the ones before it. -/
theorem toList_foldl_joins
    (builder : CommandBuilder)
    (steps : List TaskStep) :
    (steps.foldl
        (fun command step =>
          let scriptParsed := decodeBase64 step.script
          if step.ignores then
            command.thenCommand scriptParsed
          else
            command.chain scriptParsed)
        builder).command.toList =
      builder.command.toList ++ Shell.joined (steps.map TaskStep.joins) := by
  induction steps generalizing builder with
  | nil => simp [Shell.joined]
  | cons step steps inductionHypothesis =>
      rw [List.foldl_cons, inductionHypothesis]
      cases ignores : step.ignores <;>
        simp [Shell.joined, TaskStep.joins, ignores, Shell.Connective.text,
          CommandBuilder.thenCommand, CommandBuilder.chain]

/-- The command is a line of the steps' scripts. -/
theorem buildTaskCmd_eq
    (separator : String)
    (steps : List TaskStep) :
    buildTaskCmd separator steps =
      String.ofList
        (("echo " ++ separator).toList ++ Shell.joined (steps.map TaskStep.joins)) := by
  have echo :
      ((CommandBuilder.init "echo").withParam separator).command.toList =
        ("echo " ++ separator).toList := by
    simp [CommandBuilder.init, CommandBuilder.withParam]
  rw [← String.toList_inj, String.toList_ofList, ← echo]
  exact toList_foldl_joins _ steps

/-- A step, and the code that its script exits with. -/
structure StepRun where
  step : TaskStep
  exitCode : Nat
  deriving Repr, DecidableEq

/-- The step's failure is one of the task, once the step is executed. -/
def StepRun.FailsTask (run : StepRun) : Prop :=
  run.step.ignores = false ∧ run.exitCode ≠ 0

instance (run : StepRun) : Decidable run.FailsTask :=
  inferInstanceAs (Decidable (_ ∧ _))

/-- The step at a position is executed and its failure counts. -/
def FailsAt (runs : List StepRun) (executed : List Bool) (index : Nat) : Prop :=
  executed[index]? = some true ∧ ∃ run, runs[index]? = some run ∧ run.FailsTask

/--
A step is executed exactly when none before it has failed, and the exit status
says whether one has.  A step may already have failed before the list.
-/
structure IgnoresFrom
    (failed : Prop)
    (runs : List StepRun)
    (executed : List Bool)
    (status : Nat) :
    Prop where
  executed_iff : ∀ index < runs.length,
    (executed[index]? = some true ↔
      ¬failed ∧ ∀ earlier < index, ¬FailsAt runs executed earlier)
  fails_iff : status ≠ 0 ↔ failed ∨ ∃ index, FailsAt runs executed index

/-- The first step is judged, and then the ones after it. -/
theorem ignoresFrom_cons
    {failed : Prop}
    {run : StepRun}
    {runs : List StepRun}
    {isExecuted : Bool}
    {executed : List Bool}
    {status : Nat} :
    IgnoresFrom failed (run :: runs) (isExecuted :: executed) status ↔
      (isExecuted = true ↔ ¬failed) ∧
        IgnoresFrom (failed ∨ isExecuted = true ∧ run.FailsTask) runs executed status := by
  have failsFirst :
      FailsAt (run :: runs) (isExecuted :: executed) 0 ↔
        isExecuted = true ∧ run.FailsTask := by
    simp [FailsAt]
  have failsLater : ∀ index,
      FailsAt (run :: runs) (isExecuted :: executed) (index + 1) ↔
        FailsAt runs executed index := by
    intro index
    simp [FailsAt]
  have failsSome :
      (∃ index, FailsAt (run :: runs) (isExecuted :: executed) index) ↔
        isExecuted = true ∧ run.FailsTask ∨ ∃ index, FailsAt runs executed index := by
    rw [← Nat.or_exists_add_one, failsFirst]
    simp only [failsLater]
  have failsBefore : ∀ index,
      (∀ earlier < index + 1, ¬FailsAt (run :: runs) (isExecuted :: executed) earlier) ↔
        ¬(isExecuted = true ∧ run.FailsTask) ∧
          ∀ earlier < index, ¬FailsAt runs executed earlier := by
    intro index
    rw [Nat.forall_lt_succ_left, failsFirst]
    simp only [failsLater]
  constructor
  · intro ignoring
    refine ⟨?_, ⟨?_, ?_⟩⟩
    · simpa using ignoring.executed_iff 0 (Nat.succ_pos _)
    · intro index inside
      have later := ignoring.executed_iff (index + 1) (Nat.succ_lt_succ inside)
      rw [List.getElem?_cons_succ, failsBefore] at later
      rw [later, not_or, and_assoc]
    · rw [ignoring.fails_iff, failsSome, or_assoc]
  · rintro ⟨first, later⟩
    constructor
    · intro index inside
      cases index with
      | zero => simpa using first
      | succ index =>
          rw [List.getElem?_cons_succ, failsBefore,
            later.executed_iff index (Nat.lt_of_succ_lt_succ inside), not_or, and_assoc]
    · rw [later.fails_iff, failsSome, or_assoc]

/-- The first step of the list ignores its failure. -/
def BeginsIgnoring (runs : List StepRun) : Prop :=
  ∃ next, runs[0]? = some next ∧ next.step.ignores = true

/--
The steps for which the connectives do what the flags say: right after an
ignored failure stands another step that ignores its own, and after a failure
of the task no step does.
-/
structure ConnectivesFit (runs : List StepRun) : Prop where
  followed : ∀ index run,
    runs[index]? = some run → run.step.ignores = true → run.exitCode ≠ 0 →
      ∃ next, runs[index + 1]? = some next ∧ next.step.ignores = true
  noneIgnored : runs.Pairwise fun earlier later =>
    earlier.FailsTask → later.step.ignores = false

theorem connectivesFit_cons
    {run : StepRun}
    {runs : List StepRun} :
    ConnectivesFit (run :: runs) ↔
      (run.step.ignores = true → run.exitCode ≠ 0 → BeginsIgnoring runs) ∧
        (run.FailsTask → ∀ later ∈ runs, later.step.ignores = false) ∧
        ConnectivesFit runs := by
  constructor
  · rintro ⟨followed, noneIgnored⟩
    rw [List.pairwise_cons] at noneIgnored
    refine ⟨?_, ?_, ?_, noneIgnored.2⟩
    · intro ignores fails
      simpa [BeginsIgnoring] using followed 0 run rfl ignores fails
    · intro fails later listed
      exact noneIgnored.1 later listed fails
    · intro index later found ignores fails
      simpa using followed (index + 1) later (by simpa using found) ignores fails
  · rintro ⟨first, failing, followed, noneIgnored⟩
    refine ⟨?_, List.pairwise_cons.mpr ⟨?_, noneIgnored⟩⟩
    · intro index later found ignores fails
      cases index with
      | zero =>
          obtain rfl : run = later := by simpa using found
          simpa [BeginsIgnoring] using first ignores fails
      | succ index =>
          simpa using followed index later (by simpa using found) ignores fails
    · intro later listed fails
      exact failing fails later listed

/-- Where no step ignores its failure the connectives fit. -/
theorem ConnectivesFit.of_noneIgnored
    {runs : List StepRun}
    (noneIgnored : ∀ run ∈ runs, run.step.ignores = false) :
    ConnectivesFit runs := by
  constructor
  · intro index run found ignores
    rw [noneIgnored run (List.mem_of_getElem? found)] at ignores
    cases ignores
  · rw [List.pairwise_iff_forall_sublist]
    intro earlier later sublist _
    exact noneIgnored later (sublist.subset (by simp))

/-- What the shell does with the steps after a command with a status. -/
def runSteps (status : Nat) (runs : List StepRun) : List Bool × Nat :=
  Shell.runFrom status (runs.map fun run => (run.step.joins.1, run.exitCode))

theorem runSteps_cons
    (status : Nat)
    (run : StepRun)
    (runs : List StepRun) :
    runSteps status (run :: runs) =
      if run.step.ignores = true ∨ status = 0 then
        (true :: (runSteps run.exitCode runs).1, (runSteps run.exitCode runs).2)
      else
        (false :: (runSteps status runs).1, (runSteps status runs).2) := by
  cases ignores : run.step.ignores <;>
    simp [runSteps, Shell.runFrom, TaskStep.joins, ignores]

/-- After a failure of the task every step has to be passed by. -/
theorem runSteps_ignoresFrom_true
    {status : Nat}
    (failed : status ≠ 0)
    (runs : List StepRun) :
    IgnoresFrom True runs (runSteps status runs).1 (runSteps status runs).2 ↔
      ∀ run ∈ runs, run.step.ignores = false := by
  induction runs generalizing status with
  | nil => simpa [runSteps, Shell.runFrom] using IgnoresFrom.mk (by simp) (by simpa using failed)
  | cons run runs inductionHypothesis =>
      rw [runSteps_cons]
      cases ignores : run.step.ignores with
      | true => simp [ignoresFrom_cons, ignores]
      | false => simp [ignoresFrom_cons, ignores, failed, inductionHypothesis failed]

/-- As long as the task has not failed, a step may need to follow a failure. -/
theorem runSteps_ignoresFrom_false
    (status : Nat)
    (runs : List StepRun) :
    IgnoresFrom False runs (runSteps status runs).1 (runSteps status runs).2 ↔
      (status ≠ 0 → BeginsIgnoring runs) ∧ ConnectivesFit runs := by
  induction runs generalizing status with
  | nil =>
      have fits : ConnectivesFit [] := ConnectivesFit.of_noneIgnored (by simp)
      have neverBegins : ¬BeginsIgnoring [] := by simp [BeginsIgnoring]
      simp only [fits, neverBegins, and_true, imp_false, not_not]
      constructor
      · intro ignoring
        simpa [runSteps, Shell.runFrom, FailsAt] using ignoring.fails_iff
      · rintro rfl
        exact ⟨by simp, by simp [runSteps, Shell.runFrom, FailsAt]⟩
  | cons run runs inductionHypothesis =>
      have begins : BeginsIgnoring (run :: runs) ↔ run.step.ignores = true := by
        simp [BeginsIgnoring]
      rw [runSteps_cons, connectivesFit_cons, begins]
      by_cases executed : run.step.ignores = true ∨ status = 0
      · have admitted : status ≠ 0 → run.step.ignores = true := by
          tauto
        simp only [if_pos executed, ignoresFrom_cons, false_or, true_and,
          not_false_eq_true]
        rw [and_iff_right admitted]
        by_cases failsTask : run.FailsTask
        · -- from here on the task has failed
          have counted : run.step.ignores = false := failsTask.1
          rw [eq_true failsTask, runSteps_ignoresFrom_true failsTask.2]
          constructor
          · intro noneIgnored
            exact ⟨by simp [counted], fun _ => noneIgnored, .of_noneIgnored noneIgnored⟩
          · intro fits
            exact fits.2.1 trivial
        · have forgiven : run.exitCode ≠ 0 → run.step.ignores = true := by
            intro fails
            by_contra counts
            exact failsTask ⟨by simpa using counts, fails⟩
          simp only [failsTask, inductionHypothesis, false_implies, true_and]
          constructor
          · rintro ⟨followed, fits⟩
            exact ⟨fun _ => followed, fits⟩
          · rintro ⟨followed, fits⟩
            exact ⟨fun fails => followed (forgiven fails) fails, fits⟩
      · -- the step is passed by although the task has not failed
        have passedBy : ¬(status ≠ 0 → run.step.ignores = true) := by
          tauto
        simp [if_neg executed, ignoresFrom_cons, passedBy]

/--
The law that the flags announce: a step is executed exactly when no step
before it has failed the task, and the exit status says whether one has.
-/
def IgnoresFailures (runs : List StepRun) (executed : List Bool) (status : Nat) : Prop :=
  executed.length = runs.length ∧
    (∀ index < runs.length,
      (executed[index]? = some true ↔
        ∀ earlier < index, ¬FailsAt runs executed earlier)) ∧
    (status ≠ 0 ↔ ∃ index, FailsAt runs executed index)

theorem ignoresFailures_iff
    {runs : List StepRun}
    {executed : List Bool}
    {status : Nat}
    (sameLength : executed.length = runs.length) :
    IgnoresFailures runs executed status ↔ IgnoresFrom False runs executed status := by
  constructor
  · rintro ⟨-, executed_iff, fails_iff⟩
    exact ⟨by simpa using executed_iff, by simpa using fails_iff⟩
  · intro ignores
    exact ⟨sameLength, by simpa using ignores.executed_iff, by simpa using ignores.fails_iff⟩

/-- The shell reads the steps' scripts and runs them after the `echo`. -/
theorem runLine_buildTaskCmd
    {separator : String}
    {runs : List StepRun}
    (isEcho : Shell.IsSimpleCommand ("echo " ++ separator).toList)
    (areSimple : ∀ run ∈ runs,
      Shell.IsSimpleCommand (decodeBase64 run.step.script).toList) :
    Shell.runLine (buildTaskCmd separator (runs.map StepRun.step))
        (runs.map StepRun.exitCode) = some (runSteps 0 runs) := by
  have simpleJoins : ∀ command ∈ (runs.map StepRun.step).map TaskStep.joins,
      Shell.IsSimpleCommand command.2 := by
    intro command listed
    simp only [List.map_map, List.mem_map] at listed
    obtain ⟨run, isRun, rfl⟩ := listed
    simp only [Function.comp_apply, TaskStep.joins]
    exact areSimple run isRun
  rw [buildTaskCmd_eq, Shell.runLine_joined isEcho simpleJoins (by simp)]
  simp [runSteps, List.zip_map', Function.comp_def]

/--
The command of a task executes the steps that the flags say, and fails when
they say, exactly when the connectives fit.
-/
theorem runLine_buildTaskCmd_iff
    {separator : String}
    {runs : List StepRun}
    (isEcho : Shell.IsSimpleCommand ("echo " ++ separator).toList)
    (areSimple : ∀ run ∈ runs,
      Shell.IsSimpleCommand (decodeBase64 run.step.script).toList) :
    (∃ executed status,
        Shell.runLine (buildTaskCmd separator (runs.map StepRun.step))
            (runs.map StepRun.exitCode) = some (executed, status) ∧
          IgnoresFailures runs executed status) ↔
      ConnectivesFit runs := by
  have sameLength : (runSteps 0 runs).1.length = runs.length := by
    rw [runSteps, Shell.length_runFrom, List.length_map]
  have fits := runSteps_ignoresFrom_false 0 runs
  simp only [ne_eq, not_true_eq_false, false_implies, true_and] at fits
  rw [runLine_buildTaskCmd isEcho areSimple, ← fits, ← ignoresFailures_iff sameLength]
  constructor
  · rintro ⟨executed, status, ran, ignores⟩
    rw [Option.some.inj ran]
    exact ignores
  · intro ignores
    exact ⟨_, _, rfl, ignores⟩

/-- The separator that every task is built with makes a simple command. -/
theorem isSimpleCommand_echo_identifier
    (taskId : Nat) :
    Shell.IsSimpleCommand ("echo " ++ buildTaskIdentifier taskId).toList := by
  have written :
      ("echo " ++ buildTaskIdentifier taskId).toList =
        "echo prescott_".toList ++ Nat.toDigits 10 taskId := by
    simp [buildTaskIdentifier]
  have areDigits : ∀ char ∈ Nat.toDigits 10 taskId, char.isDigit = true :=
    fun _ listed => Nat.isDigit_of_mem_toDigits (by decide) (by decide) listed
  have scanned :
      Shell.Lexer.start.scan ("echo prescott_".toList ++ Nat.toDigits 10 taskId) =
        some ⟨[], .other⟩ := by
    have before : Shell.Lexer.start.scan "echo prescott_".toList = some ⟨[], .other⟩ := by
      decide
    rw [Shell.Lexer.scan] at before ⊢
    rw [List.foldlM_append, before]
    exact Shell.Lexer.scan_digits areDigits
  rw [written]
  refine ⟨by rw [scanned]; rfl, ?_⟩
  have word :
      Shell.firstWord ("echo prescott_".toList ++ Nat.toDigits 10 taskId) = "echo".toList := by
    simp [Shell.firstWord, Shell.isBlank]
  unfold Shell.HasCommandWord
  rw [word]
  decide

/-- Two steps that ignore their failures, after one that succeeds. -/
def ignoringSteps : List StepRun :=
  [⟨⟨"build", "bWFrZSBhbGw=", none⟩, 0⟩, ⟨⟨"lint", "bWFrZSBsaW50", some true⟩, 2⟩,
    ⟨⟨"report", "ZWNobyBkb25l", some true⟩, 0⟩]

theorem runLine_buildTaskCmd_iff_ignoring :
    (∃ executed status,
        Shell.runLine (buildTaskCmd (buildTaskIdentifier 1) (ignoringSteps.map StepRun.step))
            (ignoringSteps.map StepRun.exitCode) = some (executed, status) ∧
          IgnoresFailures ignoringSteps executed status) ↔
      ConnectivesFit ignoringSteps :=
  runLine_buildTaskCmd_iff (isSimpleCommand_echo_identifier 1) (by decide +kernel)

/-- A step that ignores its failure and a step after it that does not. -/
def followedSteps : List StepRun :=
  [⟨⟨"lint", "bWFrZSBsaW50", some true⟩, 2⟩, ⟨⟨"build", "bWFrZSBhbGw=", none⟩, 0⟩]

/-- The second step is not executed, and the command fails. -/
theorem buildTaskCmd_keepsFailure :
    (∀ run ∈ followedSteps, Shell.IsSimpleCommand (decodeBase64 run.step.script).toList) ∧
      Shell.runLine (buildTaskCmd (buildTaskIdentifier 1) (followedSteps.map StepRun.step))
        (followedSteps.map StepRun.exitCode) = some ([true, false], 2) ∧
      ¬IgnoresFailures followedSteps [true, false] 2 := by
  refine ⟨by decide +kernel, by decide +kernel, ?_⟩
  rintro ⟨-, executed_iff, -⟩
  have second : [true, false][1]? = some true := by
    rw [executed_iff 1 (by decide)]
    intro earlier first
    obtain rfl : earlier = 0 := by omega
    rintro ⟨-, run, isRun, counts, -⟩
    obtain rfl := Option.some.inj isRun
    cases counts
  cases second

end Prescott
