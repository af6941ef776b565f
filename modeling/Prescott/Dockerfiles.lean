import Prescott.TaskCommand

namespace Prescott

/-!
# The Dockerfile of a task

The text that `buildEnv` writes for docker is read by lines.  The command of
the task is escaped before it is put into its line, and the name and the
version of the image are not.
-/

/-- The image of an environment; without a version the latest one. -/
def buildDockerImage (name : String) (version : Option String) : String :=
  name ++ ":" ++ version.getD "latest"

/-- The replacements of `normalizeDockerCmd`. -/
def ESCAPE_REPLACE_MAP : List (Char × List Char) :=
  [('\n', ['\\', 'n']), ('\r', ['\\', 'r']), ('\t', ['\\', 't']),
    ('\x08', ['\\', 'b']), ('\x0c', ['\\', 'f']), ('\x0b', ['\\', 'v'])]

/-- Write the escapes of a command out. -/
def normalizeDockerCmd (cmd : String) : String :=
  String.ofList (cmd.toList.flatMap fun char =>
    (ESCAPE_REPLACE_MAP.lookup char).getD [char])

/-- The text of a Dockerfile, line by line. -/
def buildDockerfile (image cmd : String) (copy : Bool) : String :=
  "\n".intercalate
    (["FROM " ++ image ++ " AS base", "WORKDIR /usr/src/app"] ++
      (if copy then ["COPY . ."] else []) ++
      ["CMD " ++ normalizeDockerCmd cmd])

namespace BuildEnvDto

/-- What `buildEnvImpl` writes for the script that `buildClearTask` passes. -/
def dockerfile (dto : BuildEnvDto) : String :=
  let baseImage := buildDockerImage dto.envInfo.name dto.envInfo.version
  buildDockerfile baseImage (buildTaskCmd dto.imageTag dto.steps) false

/-- Neither the name nor the version of the image has a line feed. -/
def NamesOneLine (dto : BuildEnvDto) : Prop :=
  '\n' ∉ dto.envInfo.name.toList ∧
    ∀ version, dto.envInfo.version = some version → '\n' ∉ version.toList

end BuildEnvDto

/-- The lines that docker reads. -/
def dockerfileLines (dockerfile : String) : List (List Char) :=
  dockerfile.toList.splitOn '\n'

/-- The lines are one `FROM`, one `WORKDIR` and one `CMD` instruction. -/
def HasThreeInstructions (dockerfile : String) : Prop :=
  ∃ image directory cmd : List Char,
    dockerfileLines dockerfile =
      ["FROM ".toList ++ image, "WORKDIR ".toList ++ directory, "CMD ".toList ++ cmd]

/-- No line break is left in a command. -/
theorem newline_notMem_normalizeDockerCmd
    (cmd : String) :
    '\n' ∉ (normalizeDockerCmd cmd).toList := by
  rw [normalizeDockerCmd, String.toList_ofList, List.mem_flatMap]
  rintro ⟨char, _, member⟩
  have replaced : ∀ pair ∈ ESCAPE_REPLACE_MAP, '\n' ∉ pair.2 := by
    decide
  cases found : ESCAPE_REPLACE_MAP.lookup char with
  | none =>
      rw [found] at member
      cases List.mem_singleton.mp member
      cases found
  | some replacement =>
      rw [found] at member
      obtain ⟨_, _, shape, _⟩ := List.lookup_eq_some_iff.mp found
      exact replaced (char, replacement) (by rw [shape]; simp) member

namespace BuildEnvDto

variable (dto : BuildEnvDto)

/-- The instruction for the base image. -/
def fromInstruction : List Char :=
  ("FROM " ++ buildDockerImage dto.envInfo.name dto.envInfo.version ++ " AS base").toList

/-- The instruction for the base image is followed by two lines. -/
theorem dockerfileLines_dockerfile :
    dockerfileLines dto.dockerfile =
      dto.fromInstruction.splitOn '\n' ++
        ["WORKDIR /usr/src/app".toList,
          "CMD ".toList ++
            (normalizeDockerCmd (buildTaskCmd dto.imageTag dto.steps)).toList] := by
  have workdir : '\n' ∉ "WORKDIR /usr/src/app".toList := by
    decide
  have command :
      '\n' ∉ "CMD ".toList ++
        (normalizeDockerCmd (buildTaskCmd dto.imageTag dto.steps)).toList := by
    simp [newline_notMem_normalizeDockerCmd]
  have written :
      dto.dockerfile.toList =
        dto.fromInstruction ++
          '\n' :: ("WORKDIR /usr/src/app".toList ++
            '\n' :: ("CMD ".toList ++
              (normalizeDockerCmd (buildTaskCmd dto.imageTag dto.steps)).toList)) := by
    simp [dockerfile, buildDockerfile, fromInstruction]
  rw [dockerfileLines, written, List.splitOn_append_cons_self,
    List.splitOn_append_cons_self_of_not_mem workdir, List.splitOn_eq_singleton command]

theorem newline_notMem_fromInstruction :
    '\n' ∉ dto.fromInstruction ↔ dto.NamesOneLine := by
  cases version : dto.envInfo.version with
  | none => simp [fromInstruction, buildDockerImage, NamesOneLine, version]
  | some version => simp [fromInstruction, buildDockerImage, NamesOneLine, version]

end BuildEnvDto

/-- A text with a separator is split into two pieces or more. -/
theorem notMem_of_splitOn_eq_singleton
    {sep : Char}
    {text piece : List Char}
    (split : text.splitOn sep = [piece]) :
    sep ∉ text := by
  intro member
  obtain ⟨before, after, rfl⟩ := List.append_of_mem member
  rw [List.splitOn_append_cons_self] at split
  have lengths := congrArg List.length split
  have first := List.length_pos_of_ne_nil (List.splitOn_ne_nil sep before)
  have second := List.length_pos_of_ne_nil (List.splitOn_ne_nil sep after)
  simp only [List.length_append, List.length_singleton] at lengths
  omega

/--
The Dockerfile of a task has its three instructions and nothing else exactly if
the name and the version of the image have no line feed.
-/
theorem dockerfile_hasThreeInstructions_iff
    (dto : BuildEnvDto) :
    HasThreeInstructions dto.dockerfile ↔ dto.NamesOneLine := by
  rw [← dto.newline_notMem_fromInstruction]
  constructor
  · rintro ⟨image, directory, cmd, hasLines⟩
    rw [dto.dockerfileLines_dockerfile] at hasLines
    have lengths := congrArg List.length hasLines
    obtain ⟨piece, split⟩ :
        ∃ piece, dto.fromInstruction.splitOn '\n' = [piece] :=
      List.length_eq_one_iff.mp (by simpa using lengths)
    exact notMem_of_splitOn_eq_singleton split
  · intro oneLine
    refine ⟨(buildDockerImage dto.envInfo.name dto.envInfo.version ++ " AS base").toList,
      "/usr/src/app".toList,
      (normalizeDockerCmd (buildTaskCmd dto.imageTag dto.steps)).toList, ?_⟩
    rw [dto.dockerfileLines_dockerfile, List.splitOn_eq_singleton oneLine]
    simp [BuildEnvDto.fromInstruction]

/-- The name of the image has three lines. -/
def threeLineImage : BuildEnvDto where
  imageTag := "prescott_1"
  envInfo := { name := "alpine AS first\nRUN id\nFROM alpine" }
  steps := []

/-- The second line of the name becomes an instruction that docker runs. -/
theorem dockerfile_addsInstruction :
    dockerfileLines threeLineImage.dockerfile =
        ["FROM alpine AS first".toList, "RUN id".toList,
          "FROM alpine:latest AS base".toList, "WORKDIR /usr/src/app".toList,
          "CMD echo prescott_1".toList] ∧
      ¬HasThreeInstructions threeLineImage.dockerfile := by
  have written :
      dockerfileLines threeLineImage.dockerfile =
        ["FROM alpine AS first".toList, "RUN id".toList,
          "FROM alpine:latest AS base".toList, "WORKDIR /usr/src/app".toList,
          "CMD echo prescott_1".toList] := by
    decide +kernel
  refine ⟨written, ?_⟩
  rintro ⟨image, directory, cmd, hasLines⟩
  rw [written] at hasLines
  cases congrArg List.length hasLines

end Prescott
