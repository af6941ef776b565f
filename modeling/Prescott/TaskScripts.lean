import Prescott.Dockerfiles
import Prescott.Utf8Encoding

namespace Prescott

/-!
# The scripts of a task

A client sends a script in base64, and the command of the task has the script
itself.  Any text comes back from its encoding; on the way into the Dockerfile
six characters are replaced by their escapes.
-/

/-- The character for six bits. -/
def base64Digit (value : Nat) : Char :=
  if value < 26 then
    Char.ofNat ('A'.toNat + value)
  else if value < 52 then
    Char.ofNat ('a'.toNat + (value - 26))
  else if value < 62 then
    Char.ofNat ('0'.toNat + (value - 52))
  else if value = 62 then
    '+'
  else
    '/'

/-- Three bytes make four characters; what is missing of the last ones is padded. -/
def base64Text : List UInt8 → List Char
  | first :: second :: third :: rest =>
      base64Digit (first.toNat / 4) ::
        base64Digit (first.toNat % 4 * 16 + second.toNat / 16) ::
          base64Digit (second.toNat % 16 * 4 + third.toNat / 64) ::
            base64Digit (third.toNat % 64) :: base64Text rest
  | [first, second] =>
      [base64Digit (first.toNat / 4),
        base64Digit (first.toNat % 4 * 16 + second.toNat / 16),
        base64Digit (second.toNat % 16 * 4), '=']
  | [first] => [base64Digit (first.toNat / 4), base64Digit (first.toNat % 4 * 16), '=', '=']
  | [] => []

/-- The text in UTF-8, and its bytes in base64. -/
def encodeBase64 (str : String) : String :=
  String.ofList (base64Text (Utf8.encode str.toList))

/-- A digit stands for its six bits. -/
theorem base64Value_base64Digit
    {value : Nat}
    (isBits : value < 64) :
    base64Value (base64Digit value) = some value := by
  have all : ∀ value < 64, base64Value (base64Digit value) = some value := by
    decide
  exact all value isBits

theorem ofNat_eq_byte
    {number : Nat}
    (byte : UInt8)
    (same : number % 256 = byte.toNat) :
    UInt8.ofNat number = byte :=
  UInt8.toNat_inj.mp (by simpa using same)

/-- A digit is read as a value, and the values after it follow. -/
theorem base64Values_cons
    {value : Nat}
    (isBits : value < 64)
    (rest : List Char) :
    base64Values (base64Digit value :: rest) = value :: base64Values rest := by
  have isValue := base64Value_base64Digit isBits
  have notPadding : (base64Digit value != '=') = true := by
    rw [bne_iff_ne]
    intro isPadding
    rw [isPadding] at isValue
    cases isValue
  rw [base64Values, List.takeWhile_cons_of_pos (by simpa using notPadding),
    List.filterMap_cons_some isValue, base64Values]

/-- Nothing is read after the padding. -/
theorem base64Values_padding
    (rest : List Char) :
    base64Values ('=' :: rest) = [] := by
  rw [base64Values, List.takeWhile_cons_of_neg (by simp), List.filterMap_nil]

/-- The bytes come back, however many are left at the end. -/
theorem base64Bytes_base64Text
    (bytes : List UInt8) :
    base64Bytes (base64Values (base64Text bytes)) = bytes := by
  have isByte (byte : UInt8) : byte.toNat < 256 := byte.toNat_lt
  fun_induction base64Text bytes with
  | case1 first second third rest inductionHypothesis =>
      have boundFirst := isByte first
      have boundSecond := isByte second
      have boundThird := isByte third
      rw [base64Values_cons (by omega), base64Values_cons (by omega),
        base64Values_cons (by omega), base64Values_cons (by omega), base64Bytes,
        inductionHypothesis, ofNat_eq_byte first (by omega),
        ofNat_eq_byte second (by omega), ofNat_eq_byte third (by omega)]
  | case2 first second =>
      have boundFirst := isByte first
      have boundSecond := isByte second
      rw [base64Values_cons (by omega), base64Values_cons (by omega),
        base64Values_cons (by omega), base64Values_padding, base64Bytes,
        ofNat_eq_byte first (by omega), ofNat_eq_byte second (by omega)]
  | case3 first =>
      have boundFirst := isByte first
      rw [base64Values_cons (by omega), base64Values_cons (by omega),
        base64Values_padding, base64Bytes, ofNat_eq_byte first (by omega)]
  | case4 => rfl

theorem decodeBase64_encodeBase64
    (str : String) :
    decodeBase64 (encodeBase64 str) = str := by
  rw [decodeBase64, encodeBase64, String.toList_ofList, base64Bytes_base64Text,
    Utf8.decode_encode, String.ofList_toList]

/-- A step as its author writes it. -/
structure ScriptedStep where
  name : String
  script : String
  ignoreFailure : Option Bool := none
  deriving Repr, DecidableEq

namespace ScriptedStep

/-- The step as a client sends it. -/
def encoded (step : ScriptedStep) : TaskStep where
  name := step.name
  script := encodeBase64 step.script
  ignoreFailure := step.ignoreFailure

/-- The script with the connective before it. -/
def joins (step : ScriptedStep) : Shell.Connective × List Char where
  fst := if step.ignoreFailure.getD false then .sequence else .andThen
  snd := step.script.toList

end ScriptedStep

/-- A text in the line of a `CMD`: a control character becomes its escape. -/
def escapedForDocker (text : List Char) : List Char :=
  text.flatMap fun char => (ESCAPE_REPLACE_MAP.lookup char).getD [char]

/-- An escape has two characters. -/
theorem length_of_escape
    {char : Char}
    {replacement : List Char}
    (found : ESCAPE_REPLACE_MAP.lookup char = some replacement) :
    replacement.length = 2 := by
  have all : ∀ pair ∈ ESCAPE_REPLACE_MAP, pair.2.length = 2 := by
    decide
  obtain ⟨_, _, shape, _⟩ := List.lookup_eq_some_iff.mp found
  exact all (char, replacement) (by rw [shape]; simp)

theorem length_le_escapedForDocker
    (text : List Char) :
    text.length ≤ (escapedForDocker text).length := by
  induction text with
  | nil => exact Nat.le_refl _
  | cons char rest inductionHypothesis =>
      rw [escapedForDocker, List.flatMap_cons, List.length_append, ← escapedForDocker]
      cases found : ESCAPE_REPLACE_MAP.lookup char with
      | none =>
          simp only [Option.getD_none, List.length_cons, List.length_nil]
          omega
      | some replacement =>
          simp only [Option.getD_some, length_of_escape found, List.length_cons]
          omega

/-- A text is left as it is exactly if it has none of the six characters. -/
theorem escapedForDocker_eq_self_iff
    (text : List Char) :
    escapedForDocker text = text ↔
      ∀ char ∈ text, ESCAPE_REPLACE_MAP.lookup char = none := by
  induction text with
  | nil => simp [escapedForDocker]
  | cons char rest inductionHypothesis =>
      rw [escapedForDocker, List.flatMap_cons, ← escapedForDocker, List.forall_mem_cons,
        ← inductionHypothesis]
      cases found : ESCAPE_REPLACE_MAP.lookup char with
      | none => simp
      | some replacement =>
          refine iff_of_false (fun same => ?_) fun same => by cases same.1
          -- an escape makes the text longer
          have longer := congrArg List.length same
          have rest := length_le_escapedForDocker rest
          rw [Option.getD_some, List.length_append, length_of_escape found,
            List.length_cons] at longer
          omega

theorem escapedForDocker_joined
    (commands : List (Shell.Connective × List Char)) :
    escapedForDocker (Shell.joined commands) =
      Shell.joined (commands.map fun command => (command.1, escapedForDocker command.2)) := by
  have connective (connective : Shell.Connective) :
      escapedForDocker connective.text = connective.text := by
    cases connective <;> decide
  simp only [escapedForDocker, Shell.joined] at connective ⊢
  simp only [List.flatMap_assoc, List.flatMap_append, connective, List.flatMap_map]

/--
The Dockerfile for the steps a client has sent: its three instructions, and in
the last one the scripts as they were before they were encoded, one after the
other, but for the six characters that are replaced.  A script is there as its
author has written it exactly if it has none of them.
-/
theorem scripts_reachDockerfile
    (imageTag : String)
    (envInfo : EnvInfo)
    (steps : List ScriptedStep) :
    (∀ step ∈ steps, decodeBase64 step.encoded.script = step.script) ∧
      (BuildEnvDto.dockerfile ⟨imageTag, envInfo, steps.map ScriptedStep.encoded⟩).toList =
        "FROM ".toList ++ envInfo.name.toList ++ ":".toList ++
          (envInfo.version.getD "latest").toList ++ " AS base\n".toList ++
          "WORKDIR /usr/src/app\n".toList ++
          "CMD echo ".toList ++ escapedForDocker imageTag.toList ++
          Shell.joined
            (steps.map fun step =>
              (step.joins.1, escapedForDocker step.script.toList)) ∧
      ∀ step ∈ steps,
        escapedForDocker step.script.toList = step.script.toList ↔
          ∀ char ∈ step.script.toList,
            char ∉ ['\n', '\r', '\t', '\x08', '\x0c', '\x0b'] := by
  have joins (step : ScriptedStep) : step.encoded.joins = step.joins := by
    rw [TaskStep.joins, ScriptedStep.encoded, decodeBase64_encodeBase64]
    rfl
  have cmd :
      (normalizeDockerCmd
          (buildTaskCmd imageTag (steps.map ScriptedStep.encoded))).toList =
        "echo ".toList ++ escapedForDocker imageTag.toList ++
          Shell.joined
            (steps.map fun step =>
              (step.joins.1, escapedForDocker step.script.toList)) := by
    have echo : escapedForDocker "echo ".toList = "echo ".toList := by
      decide
    rw [normalizeDockerCmd, String.toList_ofList, buildTaskCmd_eq, String.toList_ofList,
      ← escapedForDocker, List.map_map]
    simp only [Function.comp_def, joins, String.toList_append]
    rw [escapedForDocker, List.flatMap_append, List.flatMap_append, ← escapedForDocker,
      ← escapedForDocker, ← escapedForDocker, echo, escapedForDocker_joined, List.map_map]
    rfl
  refine ⟨fun step _ => decodeBase64_encodeBase64 step.script, ?_, fun step _ => ?_⟩
  · rw [BuildEnvDto.dockerfile, buildDockerfile]
    simp [buildDockerImage, cmd]
  · rw [escapedForDocker_eq_self_iff]
    refine forall₂_congr fun char _ => ?_
    simp [ESCAPE_REPLACE_MAP, List.lookup_eq_none_iff]

end Prescott
