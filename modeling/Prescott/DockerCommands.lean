import Prescott.ContainerExits
import Prescott.PosixPaths
import Prescott.RunTimers
import Prescott.ShellWords

namespace Prescott

/-!
# The commands for docker

The environment contract drives docker with lines that it puts together from
the names of images and containers, from the limitations of a task and from the
directory of the server, and that it gives to a shell.  Whatever these are, the
shell runs `docker` with the words that were meant, and nothing else.
-/

/-- Text that a shell reads as one word, as it stands. -/
def IsPlain (text : String) : Prop :=
  text.toList ≠ [] ∧ text.toList.all Shell.isLiteral = true

instance (text : String) : Decidable (IsPlain text) :=
  inferInstanceAs (Decidable (_ ∧ _))

theorem IsPlain.append
    {text other : String}
    (plain : IsPlain text)
    (otherPlain : IsPlain other) :
    IsPlain (text ++ other) := by
  refine ⟨by simp [plain.1], ?_⟩
  rw [String.toList_append, List.all_append, plain.2, otherPlain.2]
  rfl

namespace CommandBuilder

variable {builder : CommandBuilder}
variable {argv : List String}
variable {stdin : Option String}

/-- A shell that is given the command runs a program with these words. -/
def Runs (builder : CommandBuilder) (argv : List String) (stdin : Option String) : Prop :=
  ∃ arguments : List Shell.Argument,
    builder.command.toList = Shell.writeLine arguments ∧
      arguments ≠ [] ∧
        (∀ argument ∈ arguments, argument.WellFormed) ∧
          Shell.commandOf (arguments.map Shell.Argument.token) =
            some { argv := argv.map String.toList, stdin := stdin.map String.toList }

/-- The command of a program without arguments. -/
theorem runs_init
    {name : String}
    (plain : IsPlain name) :
    (init name).Runs [name] none := by
  refine ⟨[.word [.plain name.toList]], ?_, by simp, ?_, ?_⟩
  · simp [init, Shell.writeLine, Shell.Argument.text, Shell.Word.text, Shell.Piece.text]
  · simp only [List.forall_mem_singleton, Shell.Argument.WellFormed]
    exact ⟨by simpa [Shell.Word.text, Shell.Piece.text] using plain.1,
      by simpa [Shell.Piece.WellFormed, List.all_eq_true] using plain.2⟩
  · simp [Shell.Argument.token, Shell.Word.value, Shell.Piece.value, Shell.commandOf]

/-- A word that is written at the end is the last one of the program. -/
theorem Runs.snoc
    {word : Shell.Word}
    {text value : String}
    (runs : builder.Runs argv stdin)
    (written : text.toList = word.text)
    (wellFormed : word.WellFormed)
    (read : word.value = value.toList) :
    (builder.withParam text).Runs (argv ++ [value]) stdin := by
  obtain ⟨arguments, isWritten, nonempty, areWellFormed, isCommand⟩ := runs
  refine ⟨arguments ++ [.word word], ?_, by simp, ?_, ?_⟩
  · rw [Shell.writeLine_snoc nonempty, ← isWritten]
    simp [withParam, written, Shell.Argument.text]
  · intro argument listed
    rcases List.mem_append.mp listed with before | last
    · exact areWellFormed argument before
    · rw [List.mem_singleton.mp last]
      exact wellFormed
  · rw [List.map_append, Shell.commandOf_append isCommand]
    simp [Shell.Argument.token, Shell.commandOf, read]

theorem Runs.withParam
    {text : String}
    (runs : builder.Runs argv stdin)
    (plain : IsPlain text) :
    (builder.withParam text).Runs (argv ++ [text]) stdin := by
  have written : text.toList = Shell.Word.text [.plain text.toList] := by
    simp [Shell.Word.text, Shell.Piece.text]
  refine runs.snoc written ⟨written ▸ plain.1, ?_⟩ ?_
  · simpa [Shell.Piece.WellFormed, List.all_eq_true] using plain.2
  · simp [Shell.Word.value, Shell.Piece.value]

theorem param_none (builder : CommandBuilder) (name : String) :
    builder.param name none = builder.withParam ("--" ++ name) := by
  simp [param, CommandBuilder.withParam, ← String.toList_inj]

theorem param_some
    {value : String}
    (builder : CommandBuilder)
    (name : String)
    (nonempty : value.toList ≠ []) :
    builder.param name (some value) =
      builder.withParam ("--" ++ name ++ "=" ++ value) := by
  have notEmpty : value ≠ "" := by
    rintro rfl
    exact nonempty rfl
  simp [param, CommandBuilder.withParam, ← String.toList_inj, notEmpty]

theorem Runs.flag
    (runs : builder.Runs argv stdin)
    (name : String)
    (plain : IsPlain name) :
    (builder.param name none).Runs (argv ++ ["--" ++ name]) stdin := by
  rw [param_none]
  exact runs.withParam (IsPlain.append (by decide) plain)

theorem Runs.param
    {value : String}
    (runs : builder.Runs argv stdin)
    (name : String)
    (plain : IsPlain name)
    (plainValue : IsPlain value) :
    (builder.param name (some value)).Runs
      (argv ++ ["--" ++ name ++ "=" ++ value]) stdin := by
  rw [param_some builder name plainValue.1]
  have dashes : IsPlain "--" := by decide
  exact runs.withParam (((dashes.append plain).append (by decide)).append plainValue)

/-- A quoted value belongs to the word of its parameter. -/
theorem Runs.quotedParam
    (runs : builder.Runs argv stdin)
    (name text : String)
    (plain : IsPlain name)
    (quotable : text.toList.all Shell.isQuotable = true) :
    (builder.param name (some ("\"" ++ text ++ "\""))).Runs
      (argv ++ ["--" ++ name ++ "=" ++ text]) stdin := by
  have dashes : IsPlain "--" := by decide
  have named : IsPlain ("--" ++ name ++ "=") := (dashes.append plain).append (by decide)
  have written :
      ("--" ++ name ++ "=" ++ ("\"" ++ text ++ "\"")).toList =
        Shell.Word.text [.plain ("--" ++ name ++ "=").toList, .quoted text.toList] := by
    simp [Shell.Word.text, Shell.Piece.text]
  rw [param_some builder name (by simp)]
  refine runs.snoc written ⟨by simp [Shell.Word.text, Shell.Piece.text], ?_⟩ ?_
  · intro piece listed
    rcases List.mem_pair.mp listed with rfl | rfl
    · exact List.all_eq_true.mp named.2
    · exact List.all_eq_true.mp quotable
  · simp [Shell.Word.value, Shell.Piece.value]

/-- A file is given to the standard input. -/
theorem Runs.redirect
    {path : String}
    (runs : builder.Runs argv stdin)
    (plain : IsPlain path) :
    ((builder.withParam "<").withParam path).Runs argv (some path) := by
  obtain ⟨arguments, isWritten, nonempty, areWellFormed, isCommand⟩ := runs
  have file : Shell.Argument.WellFormed (.word [.plain path.toList]) :=
    ⟨by simpa [Shell.Word.text, Shell.Piece.text] using plain.1,
      by simpa [Shell.Piece.WellFormed, List.all_eq_true] using plain.2⟩
  refine ⟨arguments ++ [.input] ++ [.word [.plain path.toList]], ?_, by simp, ?_, ?_⟩
  · rw [Shell.writeLine_snoc (by simp), Shell.writeLine_snoc nonempty, ← isWritten]
    simp [CommandBuilder.withParam, Shell.Argument.text, Shell.Word.text, Shell.Piece.text]
  · intro argument listed
    simp only [List.mem_append, List.mem_singleton] at listed
    rcases listed with (before | rfl) | rfl
    · exact areWellFormed argument before
    · trivial
    · exact file
  · rw [List.append_assoc, List.map_append, Shell.commandOf_append isCommand]
    simp [Shell.Argument.token, Shell.commandOf, Shell.Word.value, Shell.Piece.value]

/-- What the shell makes of the command. -/
theorem Runs.readCommand
    {name : String}
    {arguments : List String}
    (runs : builder.Runs (name :: arguments) stdin)
    (assignsNothing : '=' ∉ name.toList)
    (notReserved : name ∉ Shell.reservedWords) :
    Shell.readCommand builder.build =
      some
        { argv := (name :: arguments).map String.toList
          stdin := stdin.map String.toList } := by
  obtain ⟨words, isWritten, -, areWellFormed, isCommand⟩ := runs
  refine Shell.readCommand_writeLine isWritten areWellFormed isCommand ?_
  exact ⟨name.toList, rfl, assignsNothing, by simpa using notReserved⟩

end CommandBuilder

/-- How JavaScript prints numbers. -/
structure NumberText where
  print : Rat → String
  nonempty : ∀ number, (print number).toList ≠ []
  written :
    ∀ number,
      (print number).toList.all
        (fun char => char.isDigit || ['.', 'e', '+', '-'].contains char) = true

/-- What `randomUUID` makes. -/
structure Uuid where
  text : String
  nonempty : text.toList ≠ []
  written : text.toList.all (fun char => char.isAlphanum || char == '-') = true

/-- A character that docker allows in the name of a container. -/
def isContainerChar (char : Char) : Bool :=
  char.isAlphanum || ['_', '.', '-'].contains char

/-- A name that docker allows for a container. -/
structure ContainerName where
  text : String
  begins : text.toList.head?.any Char.isAlphanum = true
  written : text.toList.all isContainerChar = true

/-- A text that the schema of `MemoryLimit` admits, `^[0-9]+(b|k|m|g)$`. -/
structure MemoryLimit where
  amount : String
  unit : Char
  nonempty : amount.toList ≠ []
  areDigits : amount.toList.all Char.isDigit = true
  isUnit : ['b', 'k', 'm', 'g'].contains unit = true

/-- The limit as it stands in the config. -/
def MemoryLimit.text (limit : MemoryLimit) : String :=
  limit.amount.push limit.unit

/-- The directory of the server, with nothing that is special to a shell. -/
structure WorkDir where
  path : String
  plain : IsPlain path

theorem isPlain_of_all
    {text : String}
    {allows : Char → Bool}
    (nonempty : text.toList ≠ [])
    (written : text.toList.all allows = true)
    (literal : ∀ char, allows char = true → Shell.isLiteral char = true) :
    IsPlain text :=
  ⟨nonempty,
    List.all_eq_true.mpr fun char listed =>
      literal char (List.all_eq_true.mp written char listed)⟩

theorem isLiteral_of_isAlphanum
    {char : Char}
    (isAlphanum : char.isAlphanum = true) :
    Shell.isLiteral char = true := by
  simp [Shell.isLiteral, isAlphanum]

theorem isAlphanum_of_isDigit
    {char : Char}
    (isDigit : char.isDigit = true) :
    char.isAlphanum = true := by
  simp [Char.isAlphanum, isDigit]

theorem NumberText.isPlain
    (numberText : NumberText)
    (number : Rat) :
    IsPlain (numberText.print number) := by
  refine isPlain_of_all (numberText.nonempty number) (numberText.written number) ?_
  intro char allowed
  rcases (Bool.or_eq_true _ _).mp allowed with isDigit | isSign
  · exact isLiteral_of_isAlphanum (isAlphanum_of_isDigit isDigit)
  · simp only [List.contains_iff_mem, List.mem_cons, List.not_mem_nil, or_false] at isSign
    rcases isSign with rfl | rfl | rfl | rfl <;> rfl

theorem Uuid.isPlain
    (uuid : Uuid) :
    IsPlain uuid.text := by
  refine isPlain_of_all uuid.nonempty uuid.written ?_
  intro char allowed
  rcases (Bool.or_eq_true _ _).mp allowed with isAlphanum | isDash
  · exact isLiteral_of_isAlphanum isAlphanum
  · rw [eq_of_beq isDash]
    rfl

theorem ContainerName.isPlain
    (container : ContainerName) :
    IsPlain container.text := by
  have nonempty : container.text.toList ≠ [] := by
    intro empty
    have begins := container.begins
    rw [empty] at begins
    cases begins
  refine isPlain_of_all nonempty container.written ?_
  intro char allowed
  rcases (Bool.or_eq_true _ _).mp allowed with isAlphanum | isSign
  · exact isLiteral_of_isAlphanum isAlphanum
  · simp only [List.contains_iff_mem, List.mem_cons, List.not_mem_nil, or_false] at isSign
    rcases isSign with rfl | rfl | rfl <;> rfl

theorem MemoryLimit.isPlain
    (limit : MemoryLimit) :
    IsPlain limit.text := by
  have literal : Shell.isLiteral limit.unit = true := by
    have isUnit := limit.isUnit
    simp only [List.contains_iff_mem, List.mem_cons, List.not_mem_nil, or_false] at isUnit
    rcases isUnit with isUnit | isUnit | isUnit | isUnit <;> rw [isUnit] <;> rfl
  have amount : ∀ char ∈ limit.amount.toList, Shell.isLiteral char = true :=
    fun char listed =>
      isLiteral_of_isAlphanum
        (isAlphanum_of_isDigit (List.all_eq_true.mp limit.areDigits char listed))
  refine ⟨by simp [text], List.all_eq_true.mpr ?_⟩
  intro char listed
  rw [text, String.toList_push, List.mem_append, List.mem_singleton] at listed
  rcases listed with inAmount | rfl
  · exact amount char inAmount
  · exact literal

theorem isPlain_repr
    (number : Nat) :
    IsPlain number.repr := by
  refine ⟨by simp [Nat.toDigits_ne_nil], List.all_eq_true.mpr ?_⟩
  intro char listed
  rw [Nat.toList_repr] at listed
  exact isLiteral_of_isAlphanum
    (isAlphanum_of_isDigit (Nat.isDigit_of_mem_toDigits (by decide) (by decide) listed))

theorem isPlain_buildTaskIdentifier
    (taskId : Nat) :
    IsPlain (buildTaskIdentifier taskId) :=
  IsPlain.append (by decide) (isPlain_repr taskId)

/-- A number as the value of a parameter; zero is left out. -/
def CommandBuilder.numberParam
    (numberText : NumberText)
    (builder : CommandBuilder)
    (name : String)
    (number : Rat) : CommandBuilder :=
  builder.param name (if number = 0 then none else some (numberText.print number))

/-- A flag that is only set on a condition. -/
def CommandBuilder.flagIf
    (builder : CommandBuilder)
    (condition : Bool)
    (name : String) : CommandBuilder :=
  if condition then builder.param name none else builder

/-- `name.replace(/:/g, '_')`. -/
def normalizeDockerContainerName (name : String) : String :=
  String.ofList (name.toList.map fun char => if char = ':' then '_' else char)

/-- A prefix with a fresh identifier. -/
def generateRandomString (pre : String) (uuid : Uuid) : String :=
  pre ++ "_" ++ uuid.text

/-- `ms / 1000`. -/
def millisecondsToSeconds (ms : Rat) : Rat :=
  ms / 1000

/-- An entry of `Object.entries(limitations)` with a value. -/
inductive LimitationEntry where
  | ram (value : MemoryLimit)
  | rom (value : MemoryLimit)
  | ttl (value : Rat)
  | cpus (value : Rat)

/-- The option that a limitation adds to a command. -/
def LIMITATIONS_MAP
    (numberText : NumberText)
    (builder : CommandBuilder) : LimitationEntry → CommandBuilder
  | .ram value => builder.param "memory" (some value.text)
  | .rom value => (builder.param "storage-opt" none).withParam ("size=" ++ value.text)
  | .cpus value => builder.numberParam numberText "cpus" value
  -- the time to live is not for docker
  | .ttl _ => builder

/-- The options of all limitations, in their order. -/
def applyDockerLimitations
    (numberText : NumberText)
    (builder : CommandBuilder)
    (limitations : List LimitationEntry) : CommandBuilder :=
  limitations.foldl (LIMITATIONS_MAP numberText) builder

/-- The options of `docker run` besides the limitations. -/
def applyDockerRunOptions (builder : CommandBuilder) (isDelete : Bool) : CommandBuilder :=
  builder.flagIf isDelete "rm"

/-- The path of a new Dockerfile in the working directory. -/
def buildDockerfilePath (workDir : WorkDir) (uuid : Uuid) : String :=
  let dockerfileName := generateRandomString "dockerfile" uuid
  String.ofList (PosixPath.join [workDir.path.toList, dockerfileName.toList])

/-- The command of `buildEnvImpl`. -/
def buildEnvCommand (imageTag dockerfilePath : String) (isCache : Bool) : CommandBuilder :=
  let command := CommandBuilder.init "docker build"
  let command := command.param "tag" (some imageTag)
  let command := (command.withParam "- <").withParam dockerfilePath
  command.flagIf (!isCache) "no-cache"

/-- The command that removes an image. -/
def deleteEnvCommand (image : String) (isForce : Bool) : CommandBuilder :=
  ((CommandBuilder.init "docker rmi").flagIf isForce "force").withParam image

/-- The name of a new container of an image. -/
def buildContainerName (image : String) (uuid : Uuid) : String :=
  generateRandomString (normalizeDockerContainerName image) uuid

/-- The command that runs a container of an image. -/
def runEnvCommand
    (numberText : NumberText)
    (image container : String)
    (limitations : List LimitationEntry)
    (isDelete : Bool) : CommandBuilder :=
  let command := CommandBuilder.init "docker run"
  let command := command.param "name" (some container)
  let command := command.param "log-driver" (some "local")
  let command := command.param "detach" none
  let command := applyDockerLimitations numberText command limitations
  (applyDockerRunOptions command isDelete).withParam image

/-- The command that lists the containers of an image. -/
def getEnvChildrenCommand (envId : String) : CommandBuilder :=
  let command := CommandBuilder.init "docker container ls"
  let format := "\x7b\x7b.Names\x7d\x7d\t\x7b\x7b.Image\x7d\x7d"
  let command := command.param "format" (some ("\"" ++ format ++ "\""))
  (command.param "filter" none).withParam ("ancestor=" ++ envId)

namespace DockerEnvHandle

/-- The command of `stopImpl`. -/
def stopCommand
    (numberText : NumberText)
    (container : String)
    (timeout : Option Rat) : CommandBuilder :=
  let command := CommandBuilder.init "docker stop"
  let command :=
    match timeout with
    | some timeout =>
        if timeout = 0 then
          command
        else
          command.numberParam numberText "time" (millisecondsToSeconds timeout)
    | none => command
  command.withParam container

/-- The command of `killImpl`. -/
def killCommand (container : String) (signal : Nat) : CommandBuilder :=
  let command := CommandBuilder.init "docker kill"
  let value := if signal = 0 then none else some signal.repr
  (command.param "signal" value).withParam container

/-- The command that removes a container. -/
def deleteCommand (container : String) (isForce : Bool) : CommandBuilder :=
  ((CommandBuilder.init "docker rm").flagIf isForce "force").withParam container

/-- The command that waits for a container. -/
def waitCommand (container : String) : CommandBuilder :=
  (CommandBuilder.init "docker wait").withParam container

/-- The command that follows the output of a container. -/
def logsCommand (container : String) : CommandBuilder :=
  let command := CommandBuilder.init "docker logs"
  ((command.param "follow" none).param "timestamps" none).withParam container

/-- The quoted text; there is a brace too many after the memory. -/
def METRICS_FORMAT : String :=
  "\x7b\x7b.PIDs\x7d\x7d\t\x7b\x7b.MemUsage\x7d\x7d\x7d\t\x7b\x7b.CPUPerc\x7d\x7d"

/-- The command of `metricsContinuous`. -/
def metricsCommand (container : String) : CommandBuilder :=
  let command := CommandBuilder.init "docker stats"
  let command := command.param "format" (some ("\"" ++ METRICS_FORMAT ++ "\""))
  (command.param "no-trunc" none).withParam container

end DockerEnvHandle

/-- The template of all parameters. -/
def inspectFormat (params : List InspectParam) : String :=
  ",".intercalate (params.map buildContainerInspectParam)

/-- The command that inspects a container for parameters. -/
def inspectCommand (container : String) (params : List InspectParam) : CommandBuilder :=
  let command := CommandBuilder.init "docker container inspect"
  (command.param "format" (some ("\"" ++ inspectFormat params ++ "\""))).withParam container

/-- The command that looks a resource up. -/
def inspectResourceCommand (resource : String) : CommandBuilder :=
  let command := CommandBuilder.init "docker inspect"
  let format := "\x7b\x7b.Id\x7d\x7d"
  (command.withParam resource).param "format" (some ("\"" ++ format ++ "\""))

/-- A command that the environment contract gives to a shell. -/
inductive DockerCommand where
  | build (workDir : WorkDir) (uuid : Uuid) (taskId : Nat) (isCache : Bool)
  | removeImage (taskId : Nat) (isForce : Bool)
  | run (taskId : Nat) (uuid : Uuid) (limitations : List LimitationEntry) (isDelete : Bool)
  | listChildren (taskId : Nat)
  | stop (container : ContainerName) (timeout : Option Rat)
  | kill (container : ContainerName) (signal : Nat)
  | remove (container : ContainerName) (isForce : Bool)
  | wait (container : ContainerName)
  | logs (container : ContainerName)
  | metrics (container : ContainerName)
  | inspect (container : ContainerName) (params : List InspectParam)
  | inspectResource (resource : ContainerName)

namespace DockerCommand

/-- The line that is put together for the command. -/
def builder (numberText : NumberText) : DockerCommand → CommandBuilder
  | .build workDir uuid taskId isCache =>
      buildEnvCommand (buildTaskIdentifier taskId) (buildDockerfilePath workDir uuid) isCache
  | .removeImage taskId isForce => deleteEnvCommand (buildTaskIdentifier taskId) isForce
  | .run taskId uuid limitations isDelete =>
      let image := buildTaskIdentifier taskId
      runEnvCommand numberText image (buildContainerName image uuid) limitations isDelete
  | .listChildren taskId => getEnvChildrenCommand (buildTaskIdentifier taskId)
  | .stop container timeout => DockerEnvHandle.stopCommand numberText container.text timeout
  | .kill container signal => DockerEnvHandle.killCommand container.text signal
  | .remove container isForce => DockerEnvHandle.deleteCommand container.text isForce
  | .wait container => DockerEnvHandle.waitCommand container.text
  | .logs container => DockerEnvHandle.logsCommand container.text
  | .metrics container => DockerEnvHandle.metricsCommand container.text
  | .inspect container params => inspectCommand container.text params
  | .inspectResource resource => inspectResourceCommand resource.text

/-- The word of an option with a number; a zero is falsy and leaves no value. -/
def numberWord (numberText : NumberText) (name : String) (number : Rat) : String :=
  "--" ++ name ++ if number = 0 then "" else "=" ++ numberText.print number

/-- The word of a flag that is set. -/
def flagWords (condition : Bool) (name : String) : List String :=
  if condition then ["--" ++ name] else []

/-- The words of a limitation. -/
def limitationWords (numberText : NumberText) : LimitationEntry → List String
  | .ram value => ["--memory=" ++ value.text]
  | .rom value => ["--storage-opt", "size=" ++ value.text]
  | .cpus value => [numberWord numberText "cpus" value]
  | .ttl _ => []

/-- The words that docker is meant to be run with. -/
def argv (numberText : NumberText) : DockerCommand → List String
  | .build _ _ taskId isCache =>
      ["docker", "build", "--tag=" ++ buildTaskIdentifier taskId, "-"] ++
        flagWords (!isCache) "no-cache"
  | .removeImage taskId isForce =>
      ["docker", "rmi"] ++ flagWords isForce "force" ++ [buildTaskIdentifier taskId]
  | .run taskId uuid limitations isDelete =>
      ["docker", "run", "--name=" ++ buildContainerName (buildTaskIdentifier taskId) uuid,
          "--log-driver=local", "--detach"] ++
        limitations.flatMap (limitationWords numberText) ++ flagWords isDelete "rm" ++
          [buildTaskIdentifier taskId]
  | .listChildren taskId =>
      ["docker", "container", "ls",
        "--format=\x7b\x7b.Names\x7d\x7d\t\x7b\x7b.Image\x7d\x7d", "--filter",
        "ancestor=" ++ buildTaskIdentifier taskId]
  | .stop container timeout =>
      ["docker", "stop"] ++
        (match timeout with
        | some timeout =>
            if timeout = 0 then [] else [numberWord numberText "time" (timeout / 1000)]
        | none => []) ++
          [container.text]
  | .kill container signal =>
      ["docker", "kill", "--signal" ++ if signal = 0 then "" else "=" ++ signal.repr,
        container.text]
  | .remove container isForce =>
      ["docker", "rm"] ++ flagWords isForce "force" ++ [container.text]
  | .wait container => ["docker", "wait", container.text]
  | .logs container => ["docker", "logs", "--follow", "--timestamps", container.text]
  | .metrics container =>
      ["docker", "stats", "--format=" ++ DockerEnvHandle.METRICS_FORMAT, "--no-trunc",
        container.text]
  | .inspect container params =>
      ["docker", "container", "inspect", "--format=" ++ inspectFormat params, container.text]
  | .inspectResource resource =>
      ["docker", "inspect", resource.text, "--format=\x7b\x7b.Id\x7d\x7d"]

/-- The file that docker reads the instructions of an image from. -/
def stdin : DockerCommand → Option String
  | .build workDir uuid _ _ => some (buildDockerfilePath workDir uuid)
  | _ => none

end DockerCommand

namespace CommandBuilder

variable {builder : CommandBuilder}
variable {argv : List String}
variable {stdin : Option String}

/-- A command of docker with a name of its own. -/
theorem runs_docker
    (name : String)
    (plain : IsPlain name) :
    (init ("docker " ++ name)).Runs ["docker", name] none := by
  have spaced : init ("docker " ++ name) = (init "docker").withParam name := by
    simp [init, withParam]
  rw [spaced]
  exact (runs_init (by decide)).withParam plain

theorem runs_docker_container
    (name : String)
    (plain : IsPlain name) :
    (init ("docker container " ++ name)).Runs ["docker", "container", name] none := by
  have spaced :
      init ("docker container " ++ name) =
        (init "docker container").withParam name := by
    simp [init, withParam]
  rw [spaced]
  exact (runs_docker "container" (by decide)).withParam plain

theorem Runs.flagIf
    (runs : builder.Runs argv stdin)
    (name : String)
    (condition : Bool)
    (plain : IsPlain name) :
    (builder.flagIf condition name).Runs
      (argv ++ DockerCommand.flagWords condition name) stdin := by
  cases condition with
  | false => simpa [CommandBuilder.flagIf, DockerCommand.flagWords] using runs
  | true => exact runs.flag name plain

theorem Runs.numberParam
    (runs : builder.Runs argv stdin)
    (name : String)
    (numberText : NumberText)
    (plain : IsPlain name)
    (number : Rat) :
    (builder.numberParam numberText name number).Runs
      (argv ++ [DockerCommand.numberWord numberText name number]) stdin := by
  rw [CommandBuilder.numberParam, DockerCommand.numberWord]
  split
  · simpa using runs.flag name plain
  · simpa [String.append_assoc] using runs.param name plain (numberText.isPlain number)

theorem Runs.limitation
    (runs : builder.Runs argv stdin)
    (numberText : NumberText)
    (limitation : LimitationEntry) :
    (LIMITATIONS_MAP numberText builder limitation).Runs
      (argv ++ DockerCommand.limitationWords numberText limitation) stdin := by
  cases limitation with
  | ram value => exact runs.param "memory" (by decide) value.isPlain
  | rom value =>
      have size : IsPlain "size=" := by decide
      have sized := (runs.flag "storage-opt" (by decide)).withParam (size.append value.isPlain)
      simpa [LIMITATIONS_MAP, DockerCommand.limitationWords] using sized
  | cpus value => exact runs.numberParam "cpus" numberText (by decide) value
  | ttl => simpa [LIMITATIONS_MAP, DockerCommand.limitationWords] using runs

theorem Runs.applyDockerLimitations
    (runs : builder.Runs argv stdin)
    (numberText : NumberText)
    (limitations : List LimitationEntry) :
    (applyDockerLimitations numberText builder limitations).Runs
      (argv ++ limitations.flatMap (DockerCommand.limitationWords numberText)) stdin := by
  induction limitations generalizing builder argv with
  | nil => simpa [Prescott.applyDockerLimitations] using runs
  | cons limitation others inductionHypothesis =>
      have later := inductionHypothesis (runs.limitation numberText limitation)
      simpa [Prescott.applyDockerLimitations] using later

end CommandBuilder

theorem IsPlain.generateRandomString
    {pre : String}
    (plain : IsPlain pre)
    (uuid : Uuid) :
    IsPlain (generateRandomString pre uuid) :=
  (plain.append (by decide)).append uuid.isPlain

/-- Nothing special is left in the path after it has been normalised. -/
theorem isPlain_buildDockerfilePath
    (workDir : WorkDir)
    (uuid : Uuid) :
    IsPlain (buildDockerfilePath workDir uuid) := by
  have name : IsPlain (generateRandomString "dockerfile" uuid) :=
    IsPlain.generateRandomString (by decide) uuid
  rw [buildDockerfilePath]
  refine ⟨by simpa using PosixPath.join_ne_nil _, ?_⟩
  rw [String.toList_ofList, List.all_eq_true]
  intro char member
  rcases PosixPath.mem_of_mem_join member with ⟨path, listed, inPath⟩ | rfl | rfl
  · rcases List.mem_pair.mp listed with rfl | rfl
    · exact List.all_eq_true.mp workDir.plain.2 char inPath
    · exact List.all_eq_true.mp name.2 char inPath
  · rfl
  · rfl

/-- The name of an image has no colon that would be replaced. -/
theorem normalizeDockerContainerName_identifier
    (taskId : Nat) :
    normalizeDockerContainerName (buildTaskIdentifier taskId) = buildTaskIdentifier taskId := by
  have unchanged :
      ∀ char ∈ (buildTaskIdentifier taskId).toList,
        (if char = ':' then '_' else char) = char := by
    intro char listed
    rw [buildTaskIdentifier, String.toList_append, Nat.toList_repr, List.mem_append] at listed
    refine if_neg ?_
    rintro rfl
    rcases listed with inName | inDigits
    · exact absurd inName (by decide)
    · cases Nat.isDigit_of_mem_toDigits (by decide) (by decide) inDigits
  rw [normalizeDockerContainerName, List.map_congr_left unchanged, List.map_id',
    String.ofList_toList]

/-- The name that a container is given is one that docker allows. -/
def taskContainer (taskId : Nat) (uuid : Uuid) : ContainerName where
  text := buildContainerName (buildTaskIdentifier taskId) uuid
  begins := by
    have first : 'p'.isAlphanum = true := by decide
    rw [buildContainerName, normalizeDockerContainerName_identifier]
    simp [generateRandomString, buildTaskIdentifier, first]
  written := by
    rw [buildContainerName, normalizeDockerContainerName_identifier, List.all_eq_true]
    intro char member
    simp only [generateRandomString, buildTaskIdentifier, String.toList_append,
      Nat.toList_repr, List.mem_append] at member
    have name : "prescott_".toList.all isContainerChar = true := by decide
    have separator : "_".toList.all isContainerChar = true := by decide
    rcases member with ((inName | inDigits) | separates) | inUuid
    · exact List.all_eq_true.mp name char inName
    · rw [isContainerChar, isAlphanum_of_isDigit
        (Nat.isDigit_of_mem_toDigits (by decide) (by decide) inDigits)]
      rfl
    · exact List.all_eq_true.mp separator char separates
    · rcases (Bool.or_eq_true _ _).mp (List.all_eq_true.mp uuid.written char inUuid) with
        isAlphanum | isDash
      · rw [isContainerChar, isAlphanum]
        rfl
      · rw [eq_of_beq isDash]
        rfl

/-- The texts between separators are written with the characters of both. -/
theorem all_intercalate
    {allows : Char → Bool}
    {separator : List Char}
    {texts : List (List Char)}
    (separates : separator.all allows = true)
    (areAllowed : ∀ text ∈ texts, text.all allows = true) :
    (separator.intercalate texts).all allows = true := by
  induction texts with
  | nil => rfl
  | cons text others inductionHypothesis =>
      have later := inductionHypothesis fun other listed => areAllowed other (by simp [listed])
      cases others with
      | nil => simpa using areAllowed text (by simp)
      | cons second further =>
          rw [List.intercalate_cons_cons, List.all_append, List.all_append,
            areAllowed text (by simp), separates, later]
          rfl

theorem quotable_inspectFormat
    (params : List InspectParam) :
    (inspectFormat params).toList.all Shell.isQuotable = true := by
  rw [inspectFormat, String.toList_intercalate]
  refine all_intercalate (by decide) ?_
  simp only [List.mem_map]
  rintro text ⟨_, ⟨param, -, rfl⟩, rfl⟩
  cases param <;> decide

namespace DockerCommand

open CommandBuilder

/-- The shell runs every command with the words that are meant. -/
theorem runs_builder
    (numberText : NumberText)
    (command : DockerCommand) :
    (command.builder numberText).Runs (command.argv numberText) command.stdin := by
  cases command with
  | build workDir uuid taskId isCache =>
      have dash : IsPlain "-" := by decide
      have tagged :=
        (runs_docker "build" (by decide)).param "tag" (by decide)
          (isPlain_buildTaskIdentifier taskId)
      have read := (tagged.withParam dash).redirect (isPlain_buildDockerfilePath workDir uuid)
      have flagged := read.flagIf "no-cache" (!isCache) (by decide)
      simpa [builder, argv, stdin, buildEnvCommand, CommandBuilder.withParam,
        String.append_assoc] using flagged
  | removeImage taskId isForce =>
      have flagged := (runs_docker "rmi" (by decide)).flagIf "force" isForce (by decide)
      exact flagged.withParam (isPlain_buildTaskIdentifier taskId)
  | run taskId uuid limitations isDelete =>
      have named :=
        (runs_docker "run" (by decide)).param "name" (by decide)
          (taskContainer taskId uuid).isPlain
      have isLocal : IsPlain "local" := by decide
      have logged := named.param "log-driver" (by decide) isLocal
      have limited :=
        (logged.flag "detach" (by decide)).applyDockerLimitations numberText limitations
      have flagged := limited.flagIf "rm" isDelete (by decide)
      exact flagged.withParam (isPlain_buildTaskIdentifier taskId)
  | listChildren taskId =>
      have formatted :=
        (runs_docker_container "ls" (by decide)).quotedParam "format"
          "\x7b\x7b.Names\x7d\x7d\t\x7b\x7b.Image\x7d\x7d" (by decide) (by decide)
      have ancestor : IsPlain "ancestor=" := by decide
      exact (formatted.flag "filter" (by decide)).withParam
        (ancestor.append (isPlain_buildTaskIdentifier taskId))
  | stop container timeout =>
      have stops := runs_docker "stop" (by decide)
      simp only [builder, argv, stdin, DockerEnvHandle.stopCommand, millisecondsToSeconds]
      split
      · split
        · exact stops.withParam container.isPlain
        · exact (stops.numberParam "time" numberText (by decide) _).withParam container.isPlain
      · exact stops.withParam container.isPlain
  | kill container signal =>
      have kills := runs_docker "kill" (by decide)
      simp only [builder, argv, stdin, DockerEnvHandle.killCommand]
      split
      · exact (kills.flag "signal" (by decide)).withParam container.isPlain
      · exact (kills.param "signal" (by decide) (isPlain_repr signal)).withParam
          container.isPlain
  | remove container isForce =>
      have flagged := (runs_docker "rm" (by decide)).flagIf "force" isForce (by decide)
      exact flagged.withParam container.isPlain
  | wait container => exact (runs_docker "wait" (by decide)).withParam container.isPlain
  | logs container =>
      have flagged :=
        ((runs_docker "logs" (by decide)).flag "follow" (by decide)).flag "timestamps"
          (by decide)
      exact flagged.withParam container.isPlain
  | metrics container =>
      have formatted :=
        (runs_docker "stats" (by decide)).quotedParam "format"
          DockerEnvHandle.METRICS_FORMAT (by decide) (by decide)
      exact (formatted.flag "no-trunc" (by decide)).withParam container.isPlain
  | inspect container params =>
      have formatted :=
        (runs_docker_container "inspect" (by decide)).quotedParam "format"
          (inspectFormat params) (by decide) (quotable_inspectFormat params)
      exact formatted.withParam container.isPlain
  | inspectResource resource =>
      have named := (runs_docker "inspect" (by decide)).withParam resource.isPlain
      exact named.quotedParam "format" "\x7b\x7b.Id\x7d\x7d" (by decide) (by decide)

/-- Every command begins with the word `docker`. -/
theorem exists_argv_eq_cons
    (numberText : NumberText)
    (command : DockerCommand) :
    ∃ arguments, command.argv numberText = "docker" :: arguments := by
  cases command <;> exact ⟨_, rfl⟩

end DockerCommand

/-- The timer of a run sends the command of `killImpl`. -/
theorem timeoutCommand_eq_build
    (envHandle : EnvHandle) :
    timeoutCommand envHandle =
      (DockerEnvHandle.killCommand envHandle.container 9).build := by
  rfl

theorem inspectDockerContainer_eq
    (container : String)
    (params : List InspectParam) :
    inspectDockerContainer container params =
      (do
        let result ←
          execDockerCommandWithCheck container (inspectCommand container params)
        return result.line.splitOn ',') := by
  rfl

/-- A shell that is given a command runs docker with the words that are meant. -/
theorem dockerCommands_readAsMeant
    (numberText : NumberText)
    (command : DockerCommand) :
    Shell.readCommand (command.builder numberText).build =
      some
        { argv := (command.argv numberText).map String.toList
          stdin := command.stdin.map String.toList } := by
  have runs := command.runs_builder numberText
  obtain ⟨arguments, isDocker⟩ := command.exists_argv_eq_cons numberText
  rw [isDocker] at runs ⊢
  exact runs.readCommand (by decide) (by decide)

/-- Numbers up to their tenths, as JavaScript prints them. -/
def tenthsText : NumberText where
  print number :=
    let tenths := (number * 10).floor.natAbs
    let fraction := if tenths % 10 = 0 then "" else "." ++ (tenths % 10).repr
    (if number < 0 then "-" else "") ++ (tenths / 10).repr ++ fraction
  nonempty number := by
    simp [Nat.toDigits_ne_nil]
  written number := by
    have digits (value : Nat) :
        value.repr.toList.all
            (fun char => char.isDigit || ['.', 'e', '+', '-'].contains char) = true := by
      rw [Nat.toList_repr, List.all_eq_true]
      intro char listed
      rw [Nat.isDigit_of_mem_toDigits (by decide) (by decide) listed]
      rfl
    simp only [String.toList_append, List.all_append, digits, Bool.and_true, Bool.and_eq_true]
    constructor
    · split <;> decide
    · split
      · rfl
      · rw [String.toList_append, List.all_append, digits]
        rfl

/-- A container with limits on its memory, its disk and its processors, and the
build of its image. -/
theorem dockerCommands_readAsMeant_run :
    let uuid : Uuid :=
      { text := "3b241101-e2bb-4255-8caf-4136c566a962"
        nonempty := by decide
        written := by decide }
    let ram : MemoryLimit :=
      { amount := "512", unit := 'm', nonempty := by decide, areDigits := by decide
        isUnit := by decide }
    let rom : MemoryLimit :=
      { amount := "10", unit := 'g', nonempty := by decide, areDigits := by decide
        isUnit := by decide }
    let limitations : List LimitationEntry := [.ram ram, .rom rom, .ttl 60000, .cpus (3 / 2)]
    let container := "prescott_7_3b241101-e2bb-4255-8caf-4136c566a962"
    let run := DockerCommand.run 7 uuid limitations true
    let build :=
      DockerCommand.build { path := "/srv/prescott/", plain := by decide } uuid 7 false
    (run.builder tenthsText).build =
        "docker run --name=" ++ container ++ " --log-driver=local --detach --memory=512m" ++
          " --storage-opt size=10g --cpus=1.5 --rm prescott_7" ∧
      Shell.readCommand (run.builder tenthsText).build =
          some
            { argv :=
                ["docker", "run", "--name=" ++ container, "--log-driver=local", "--detach",
                  "--memory=512m", "--storage-opt", "size=10g", "--cpus=1.5", "--rm",
                  "prescott_7"].map String.toList
              stdin := none } ∧
        (build.builder tenthsText).build =
            "docker build --tag=prescott_7 - < " ++
              "/srv/prescott/dockerfile_3b241101-e2bb-4255-8caf-4136c566a962 --no-cache" ∧
          Shell.readCommand (build.builder tenthsText).build =
            some
              { argv :=
                  ["docker", "build", "--tag=prescott_7", "-", "--no-cache"].map
                    String.toList
                stdin :=
                  some
                    "/srv/prescott/dockerfile_3b241101-e2bb-4255-8caf-4136c566a962".toList } := by
  refine ⟨by decide +kernel, ?_, by decide +kernel, ?_⟩
  · rw [dockerCommands_readAsMeant]
    decide +kernel
  · rw [dockerCommands_readAsMeant]
    decide +kernel

end Prescott
