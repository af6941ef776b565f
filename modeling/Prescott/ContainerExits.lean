import Prescott.JsNumbers
import Prescott.TaskCommand
import Prescott.TaskService

namespace Prescott

/-!
# The exit code of a container

`DockerEnvHandle.wait` reads the exit code of a container from what one of two
docker commands prints, while the container goes through its life.
-/

/-- The life of a container; what is removed keeps its exit code, if it has one. -/
inductive ContainerStatus where
  | absent
  | created
  | running
  | exited (exitCode : Int)
  | removed (exitCode : Option Int)
  deriving Repr, DecidableEq

/-- What happens to a container. -/
inductive ContainerEvent where
  | create
  | start
  | exit (exitCode : Int)
  | remove
  deriving Repr, DecidableEq

namespace ContainerStatus

/-- An event that is not possible in a status does not happen. -/
def happen : ContainerStatus → ContainerEvent → ContainerStatus
  | .absent, .create => .created
  | .created, .start => .running
  | .created, .remove => .removed none
  | .running, .exit exitCode => .exited exitCode
  | .exited exitCode, .remove => .removed (some exitCode)
  | status, _ => status

/-- The exit code of a container that has terminated. -/
def exitCode? : ContainerStatus → Option Int
  | .exited exitCode => some exitCode
  | .removed exitCode => exitCode
  | .absent | .created | .running => none

/-- `.State.ExitCode` of an existing container: zero until it has terminated. -/
def stateExitCode : ContainerStatus → Option Int
  | .created | .running => some 0
  | .exited exitCode => some exitCode
  | .absent | .removed _ => none

variable {status : ContainerStatus}
variable {exitCode shown : Int}

/-- An exit code is not lost. -/
theorem exitCode_happen
    {event : ContainerEvent}
    (terminated : status.exitCode? = some exitCode) :
    (status.happen event).exitCode? = some exitCode := by
  cases status with
  | absent | created | running => cases terminated
  | removed _ => exact terminated
  | exited _ => cases event <;> exact terminated

/-- What docker shows of a terminated container is its exit code. -/
theorem stateExitCode_of_exitCode
    (isShown : status.stateExitCode = some shown)
    (terminated : status.exitCode? = some exitCode) :
    exitCode = shown := by
  cases status with
  | absent | created | running => cases terminated
  | removed _ => cases isShown
  | exited _ =>
      cases isShown
      cases terminated
      rfl

end ContainerStatus

/-- The containers, and the handles that the rows of the runs carry. -/
structure DockerWorld where
  containers : String → ContainerStatus
  handles : Nat → Option String

namespace DockerWorld

/-- An event of one container. -/
def happen (world : DockerWorld) (event : String × ContainerEvent) : DockerWorld :=
  { world with
    containers :=
      Function.update world.containers event.1
        ((world.containers event.1).happen event.2) }

/-- The events that happen until the next call takes effect. -/
def evolve (world : DockerWorld) (events : List (String × ContainerEvent)) :
    DockerWorld :=
  events.foldl happen world

theorem exitCode_evolve
    {world : DockerWorld}
    {events : List (String × ContainerEvent)}
    {container : String}
    {exitCode : Int}
    (terminated : (world.containers container).exitCode? = some exitCode) :
    ((world.evolve events).containers container).exitCode? = some exitCode := by
  induction events generalizing world with
  | nil => exact terminated
  | cons event events inductionHypothesis =>
      refine @inductionHypothesis (world.happen event) ?_
      by_cases same : container = event.1
      · subst same
        simp [happen, ContainerStatus.exitCode_happen terminated]
      · simpa [happen, Function.update_of_ne same] using terminated

@[simp] theorem handles_evolve
    {world : DockerWorld}
    {events : List (String × ContainerEvent)} :
    (world.evolve events).handles = world.handles := by
  induction events generalizing world with
  | nil => rfl
  | cons event events inductionHypothesis =>
      exact @inductionHypothesis (world.happen event)

end DockerWorld

/-- What an executed command has printed, and the exit code of its process. -/
structure ExecResult where
  stdout : String
  stderr : String
  exitCode : Int
  deriving Repr, DecidableEq

/-- The one operation of the library: a command in a shell. -/
inductive ExecOp where
  | execAsync (command : String)
  deriving Repr, DecidableEq

/-- The commands that are executed in a shell. -/
abbrev execSignature : Signature where
  Op := ExecOp
  Result := fun _ => ExecResult

/-- What becomes of a command: it fails, or it is one of these two. -/
inductive ExecInput where
  | refused (stderr : String)
  | waited (container : String)
  | inspected (container : String)
  deriving Repr, DecidableEq

/-- A command that has printed a number. -/
def DockerWorld.print (world : DockerWorld) (exitCode : Option Int) :
    Option (Except AppError ExecResult × DockerWorld) :=
  exitCode.map fun exitCode =>
    (.ok { stdout := exitCode.repr ++ "\n", stderr := "", exitCode := 0 }, world)

/-- Docker answers the two commands; a promise of `exec` rejects on failure. -/
def execHost : Host execSignature AppError DockerWorld ExecInput
  | .execAsync _, .refused stderr, world => some (.error (.failure stderr), world)
  | .execAsync command, .waited container, world =>
      if command = "docker wait " ++ container then
        match world.containers container with
        -- the command returns when the container is not running
        | .running => none
        | status => world.print status.stateExitCode
      else
        none
  | .execAsync command, .inspected container, world =>
      if command =
          "docker container inspect --format=\"\x7b\x7b .State.ExitCode \x7d\x7d\" " ++
            container then
        world.print (world.containers container).stateExitCode
      else
        none

/-- The answers of the calls that the run of a task awaits besides. -/
abbrev TaskAnswers := (op : TaskOp) → Except AppError op.Result

/--
The calls of the task services are answered in any way; a container that is
run is a new one, and the rows keep their handles.
-/
def answeringHost : Host taskSignature AppError DockerWorld TaskAnswers
  | .runEnv envId limitations, answers, world =>
      match answers (.runEnv envId limitations) with
      | .ok container =>
          if world.containers container = .absent then
            some (.ok container, world.happen (container, .create))
          else
            none
      | .error reason => some (.error reason, world)
  | .updateRun id dto, answers, world =>
      match answers (.updateRun id dto) with
      | .ok () =>
          some (.ok (),
            { world with
              handles :=
                Function.update world.handles id
                  (dto.handleId.orElse fun _ => world.handles id) })
      | .error reason => some (.error reason, world)
  | op, answers, world => some (answers op, world)

/-- The calls of a run, with the events of containers before each of them. -/
def dockerHost :
    Host (taskSignature.sum execSignature) AppError DockerWorld
      (List (String × ContainerEvent) × (TaskAnswers ⊕ ExecInput)) :=
  (answeringHost.sum execHost).disturbed DockerWorld.happen

/-- A program that also executes commands. -/
abbrev DockerProgram (α : Type) :=
  Async (taskSignature.sum execSignature) AppError α

/-- The program of a task service. -/
abbrev TaskProgram.onDocker {α : Type} (program : TaskProgram α) : DockerProgram α :=
  program.lift

/-- The parameters that a container is inspected for. -/
inductive InspectParam where
  | pid
  | exitCode
  | startedAt
  | finishedAt
  | status
  | retries
  deriving Repr, DecidableEq

/-- The template of each parameter. -/
def INSPECT_MAP : InspectParam → String
  | .pid => "\x7b\x7b .State.Pid \x7d\x7d"
  | .exitCode => "\x7b\x7b .State.ExitCode \x7d\x7d"
  | .status => "\x7b\x7b .State.Status \x7d\x7d"
  | .startedAt => "\x7b\x7b .State.StartedAt \x7d\x7d"
  | .finishedAt => "\x7b\x7b .State.FinishedAt \x7d\x7d"
  | .retries => "\x7b\x7b .RestartCount \x7d\x7d"

/-- `INSPECT_MAP[param]`. -/
def buildContainerInspectParam (param : InspectParam) : String :=
  INSPECT_MAP param

/-- Await the execution of a command. -/
def CommandBuilder.execAsync (command : CommandBuilder) : DockerProgram ExecResult :=
  let op : (taskSignature.sum execSignature).Op := .inr (.execAsync command.build)
  Async.perform op

/-- The message of a `DockerEnvError` is what the command printed on `stderr`. -/
def execDockerCommandWithCheck (_entityId : String) (command : CommandBuilder) :
    DockerProgram ExecResult := do
  let result ← command.execAsync
  if result.exitCode != 0 then
    throw (.failure result.stderr)
  else
    return result

/-- `stdout.slice(0, -1)`. -/
def ExecResult.line (result : ExecResult) : List Char :=
  result.stdout.toList.dropLast

/-- Inspect a container for parameters; the line that is printed is split at its commas. -/
def inspectDockerContainer (container : String) (params : List InspectParam) :
    DockerProgram (List (List Char)) := do
  let formatBody := "\"" ++ ",".intercalate (params.map buildContainerInspectParam) ++ "\""
  let command :=
    ((CommandBuilder.init "docker container inspect").param "format" formatBody).withParam
      container
  let result ← execDockerCommandWithCheck container command
  return result.line.splitOn ','

namespace DockerEnvHandle

/-- The number that a command has printed; `NaN` where it has printed none. -/
def wait (handle : EnvHandle) : DockerProgram JsNumber :=
  let command := CommandBuilder.init "docker wait"
  Async.tryCatch
    (do
      let result ←
        execDockerCommandWithCheck handle.container (command.withParam handle.container)
      return JsNumber.parseInt result.line)
    fun _ => do
      let fields ← inspectDockerContainer handle.container [.exitCode]
      return JsNumber.parseInt (fields.headD [])

/-- `TaskService.runTaskImpl` with the exit code read from what docker prints. -/
def runTaskImpl (runHandle : TaskRunHandle) : DockerProgram Unit := do
  let (isRunAllowed, task) ← (TaskService.isTaskActive runHandle.taskId).onDocker
  if isRunAllowed then
    let taskConfig ← (TaskService.configOf task).onDocker
    let envHandle ←
      (TaskExecutorService.runExecutable runHandle.taskId taskConfig.config).onDocker
    (TaskRunService.start runHandle envHandle).onDocker
    let exitCode ← wait envHandle
    (TaskRunService.finish runHandle (exitCode == .finite 0)).onDocker
    (envHandle.delete false).onDocker
    (TaskService.stopAtLimit runHandle taskConfig.times).onDocker
  else
    pure ()

end DockerEnvHandle

variable {world before after : DockerWorld}
variable {container : String}

theorem waitCommand_eq
    (container : String) :
    ((CommandBuilder.init "docker wait").withParam container).build =
      "docker wait " ++ container := by
  simp only [CommandBuilder.build, CommandBuilder.withParam, CommandBuilder.init]
  rfl

theorem inspectCommand_eq
    (container : String) :
    (((CommandBuilder.init "docker container inspect").param "format"
      ("\"" ++ ",".intercalate ([InspectParam.exitCode].map buildContainerInspectParam) ++
        "\"")).withParam container).build =
      "docker container inspect --format=\"\x7b\x7b .State.ExitCode \x7d\x7d\" " ++
        container := by
  simp only [CommandBuilder.build, CommandBuilder.withParam]
  rfl

theorem waitCommand_ne_inspectCommand
    {container other : String} :
    "docker wait " ++ container ≠
      "docker container inspect --format=\"\x7b\x7b .State.ExitCode \x7d\x7d\" " ++
        other := by
  intro same
  have := congrArg String.toList same
  simp at this

/-- The result prints the exit code that docker shows for the container. -/
structure ExecResult.Shows
    (result : ExecResult)
    (world : DockerWorld)
    (container : String) :
    Prop where
  exitCode : result.exitCode = 0
  line :
    ∃ exitCode,
      (world.containers container).stateExitCode = some exitCode ∧
        result.line = exitCode.repr.toList

theorem shows_of_print
    {result : ExecResult}
    (printed :
      world.print (world.containers container).stateExitCode = some (.ok result, after)) :
    after = world ∧ result.Shows world container := by
  obtain ⟨exitCode, shown, printed⟩ := Option.map_eq_some_iff.mp printed
  cases printed
  refine ⟨rfl, rfl, exitCode, shown, ?_⟩
  simp [ExecResult.line]

/-- A command that succeeds is one of the two, for some container. -/
theorem shows_of_execHost
    {command : String}
    {input : ExecInput}
    {result : ExecResult}
    (answered : execHost (.execAsync command) input world = some (.ok result, after)) :
    after = world ∧
      ∃ container,
        (command = "docker wait " ++ container ∨
          command =
            "docker container inspect --format=\"\x7b\x7b .State.ExitCode \x7d\x7d\" " ++
              container) ∧
        result.Shows world container := by
  cases input with
  | refused stderr => cases answered
  | waited container =>
      simp only [execHost] at answered
      split at answered
      · rename_i isWait
        split at answered
        · cases answered
        · obtain ⟨same, shows⟩ := shows_of_print answered
          exact ⟨same, container, .inl isWait, shows⟩
      · cases answered
  | inspected container =>
      simp only [execHost] at answered
      split at answered
      · rename_i isInspect
        obtain ⟨same, shows⟩ := shows_of_print answered
        exact ⟨same, container, .inr isInspect, shows⟩
      · cases answered

/-- An answer of docker is one to the world as the events have left it. -/
theorem of_dockerHost_exec
    {command : String}
    {input : List (String × ContainerEvent) × (TaskAnswers ⊕ ExecInput)}
    {answer : Except AppError ExecResult}
    (answered :
      dockerHost (.inr (.execAsync command)) input before = some (answer, after)) :
    ∃ execInput,
      execHost (.execAsync command) execInput (before.evolve input.1) =
        some (answer, after) := by
  obtain ⟨events, input⟩ := input
  cases input with
  | inl answers => cases answered
  | inr execInput => exact ⟨execInput, answered⟩

theorem execDocker_shows
    {entityId : String}
    {command : CommandBuilder}
    {result : ExecResult}
    (settles :
      Settles dockerHost (execDockerCommandWithCheck entityId command)
        before (.ok result) after) :
    ∃ container,
      (command.build = "docker wait " ++ container ∨
        command.build =
          "docker container inspect --format=\"\x7b\x7b .State.ExitCode \x7d\x7d\" " ++
            container) ∧
      result.Shows after container := by
  obtain ⟨printed, middle, executed, checked⟩ := settles.resolved_bind
  obtain ⟨_, answered⟩ := Settles.perform_iff.mp executed
  obtain ⟨_, answered⟩ := of_dockerHost_exec answered
  obtain ⟨rfl, container, isCommand, shows⟩ := shows_of_execHost answered
  rw [shows.exitCode] at checked
  obtain ⟨resolved, rfl⟩ := Settles.pure_iff.mp checked
  cases resolved
  exact ⟨container, isCommand, shows⟩

theorem comma_notMem_repr
    (value : Int) :
    ',' ∉ value.repr.toList := by
  have notDigit (natural : Nat) : ',' ∉ Nat.toDigits 10 natural := by
    intro member
    exact absurd (Nat.isDigit_of_mem_toDigits (by decide) (by decide) member) (by decide)
  cases value with
  | ofNat natural => simpa [Int.repr, Nat.toList_repr] using notDigit natural
  | negSucc natural => simpa [Int.repr, Nat.toList_repr] using notDigit (natural + 1)

namespace DockerEnvHandle

/-- What `wait` resolves with is what docker shows for the container then. -/
theorem wait_resolves
    {handle : EnvHandle}
    {number : JsNumber}
    (settles : Settles dockerHost (wait handle) before (.ok number) after) :
    ∃ exitCode,
      (after.containers handle.container).stateExitCode = some exitCode ∧
        number = .finite exitCode := by
  rcases Settles.tryCatch_iff.mp settles with
      ⟨_, waited, resolved⟩ | ⟨_, middle, _, inspected⟩
  · cases resolved
    obtain ⟨result, executed, printed⟩ := Settles.bind_pure_iff.mp waited
    cases result with
    | error reason => cases printed
    | ok result =>
        obtain ⟨container, isCommand, shows⟩ := execDocker_shows executed
        rw [waitCommand_eq] at isCommand
        obtain same | other := isCommand
        · obtain rfl := String.append_right_inj _ |>.mp same
          obtain ⟨exitCode, shown, line⟩ := shows.line
          refine ⟨exitCode, shown, ?_⟩
          cases printed
          simp only [line, JsNumber.parseInt_repr]
        · exact (waitCommand_ne_inspectCommand other).elim
  · obtain ⟨fields, between, listed, parsed⟩ := inspected.resolved_bind
    obtain ⟨resolved, rfl⟩ := Settles.pure_iff.mp parsed
    cases resolved
    obtain ⟨result, executed, split⟩ := Settles.bind_pure_iff.mp listed
    cases result with
    | error reason => cases split
    | ok result =>
        obtain ⟨container, isCommand, shows⟩ := execDocker_shows executed
        rw [inspectCommand_eq] at isCommand
        obtain other | same := isCommand
        · exact (waitCommand_ne_inspectCommand other.symm).elim
        · obtain rfl := String.append_right_inj _ |>.mp same
          obtain ⟨exitCode, shown, line⟩ := shows.line
          refine ⟨exitCode, shown, ?_⟩
          cases split
          simp only [line, List.splitOn_eq_singleton (comma_notMem_repr exitCode),
            List.headD_cons, JsNumber.parseInt_repr]

end DockerEnvHandle

/-- A call that does not write that the run has succeeded. -/
def TaskOp.NotSucceeding (runId : Nat) (op : TaskOp) : Prop :=
  ∀ dto, op = .updateRun runId dto → dto.status ≠ .succeed

section NotSucceeding

variable {runHandle : TaskRunHandle}
variable {runId : Nat}

theorem isTaskActive_notSucceeding
    {taskId : Nat} :
    (TaskService.isTaskActive taskId).AwaitsOnly (TaskOp.NotSucceeding runId) := by
  refine .bind (.perform fun _ other => by cases other) fun found => ?_
  cases found <;> trivial

theorem configOf_notSucceeding
    {task : Option Task} :
    (TaskService.configOf task).AwaitsOnly (TaskOp.NotSucceeding runId) := by
  cases task <;> trivial

theorem start_notSucceeding
    {envHandle : EnvHandle} :
    (TaskRunService.start runHandle envHandle).AwaitsOnly
      (TaskOp.NotSucceeding runHandle.runId) :=
  .perform fun _ same => by cases same; simp

theorem runExecutable_notSucceeding
    {taskId : Nat}
    {config : LocalTaskConfig} :
    (TaskExecutorService.runExecutable taskId config).AwaitsOnly
      (TaskOp.NotSucceeding runId) :=
  .bind (.perform fun _ other => by cases other) fun _ => trivial

theorem delete_notSucceeding
    {envHandle : EnvHandle} :
    (envHandle.delete false).AwaitsOnly (TaskOp.NotSucceeding runId) :=
  .perform fun _ other => by cases other

theorem stopAllChildren_notSucceeding
    {envId : String} :
    (TaskExecutorService.stopAllChildren envId .system).AwaitsOnly
      (TaskOp.NotSucceeding runId) := by
  refine .bind (.perform fun _ other => by cases other) fun names => ?_
  refine TaskExecutorService.forAllSettled_awaits (fun envHandle => ?_) names
  exact .perform fun _ other => by cases other

theorem stopAtLimit_notSucceeding
    {times : Option Rat} :
    (TaskService.stopAtLimit runHandle times).AwaitsOnly
      (TaskOp.NotSucceeding runId) := by
  cases times with
  | none => trivial
  | some limit =>
      simp only [TaskService.stopAtLimit]
      split
      · exact .bind
          (.bind (.perform fun _ other => by cases other) fun _ =>
            stopAllChildren_notSucceeding)
          fun _ => .bind (.perform fun _ other => by cases other) fun _ =>
            .perform fun _ other => by cases other
      · trivial

end NotSucceeding

section Awaiting

variable {runHandle : TaskRunHandle}
variable {reached : DockerWorld}
variable {dto : UpdateTaskRunDto}
variable {runId : Nat}

/-- A part that does not write that the run has succeeded does not await it. -/
theorem not_awaits_of_notSucceeding
    {α : Type}
    {program : TaskProgram α}
    (only : program.AwaitsOnly (TaskOp.NotSucceeding runId))
    (succeeding : dto.status = .succeed) :
    ¬Awaits dockerHost program.onDocker before (.inl (.updateRun runId dto)) reached := by
  intro awaits
  have permitted :
      (program.onDocker).AwaitsOnly fun op =>
        ∀ taskOp, op = Sum.inl taskOp → taskOp.NotSucceeding runId :=
    .lift (only.mono fun op notSucceeding taskOp same => by cases same; exact notSucceeding)
  exact permitted.of_awaits awaits _ rfl _ rfl succeeding

/-- The events and what a command prints change no handle. -/
theorem handles_of_exec
    {op : ExecOp}
    {input : List (String × ContainerEvent) × (TaskAnswers ⊕ ExecInput)}
    {answer : Except AppError ExecResult}
    (answered : dockerHost (.inr op) input before = some (answer, after)) :
    after.handles = before.handles := by
  obtain ⟨command⟩ := op
  obtain ⟨execInput, answered⟩ := of_dockerHost_exec answered
  have printed {exitCode : Option Int} {world : DockerWorld}
      (isPrinted : world.print exitCode = some (answer, after)) : after = world := by
    obtain ⟨_, _, printed⟩ := Option.map_eq_some_iff.mp isPrinted
    cases printed
    rfl
  have same : after = before.evolve input.1 := by
    cases execInput with
    | refused stderr =>
        cases answered
        rfl
    | waited container =>
        simp only [execHost] at answered
        split at answered
        · split at answered
          · cases answered
          · exact printed answered
        · cases answered
    | inspected container =>
        simp only [execHost] at answered
        split at answered
        · exact printed answered
        · cases answered
  rw [same]
  exact DockerWorld.handles_evolve

theorem execDocker_awaits
    {entityId : String}
    {command : CommandBuilder} :
    (execDockerCommandWithCheck entityId command).AwaitsOnly fun op : TaskOp ⊕ ExecOp =>
      op.isRight = true := by
  refine .bind (.perform rfl) fun result => ?_
  split <;> trivial

theorem wait_awaits
    {handle : EnvHandle} :
    (DockerEnvHandle.wait handle).AwaitsOnly fun op : TaskOp ⊕ ExecOp =>
      op.isRight = true :=
  .tryCatch (.bind execDocker_awaits fun _ => trivial) fun _ =>
    .bind (.bind execDocker_awaits fun _ => trivial) fun _ => trivial

theorem handles_of_wait
    {handle : EnvHandle}
    {outcome : Except AppError JsNumber}
    (settles : Settles dockerHost (DockerEnvHandle.wait handle) before outcome after) :
    after.handles = before.handles := by
  refine wait_awaits.preserves (fun world => world.handles = before.handles) ?_ settles rfl
  intro op input state answer next isExec same answered
  cases op with
  | inl op => cases isExec
  | inr op => exact (handles_of_exec answered).trans same

/-- The row of a run that has started carries the handle. -/
theorem handles_of_start
    {envHandle : EnvHandle}
    (settles :
      Settles dockerHost (TaskRunService.start runHandle envHandle).onDocker
        before (.ok ()) after) :
    after.handles runHandle.runId = some envHandle.container := by
  obtain ⟨⟨events, input⟩, answered⟩ := Settles.perform_iff.mp settles
  cases input with
  | inr execInput => cases answered
  | inl answers =>
      change answeringHost (.updateRun _ _) answers _ = _ at answered
      simp only [answeringHost] at answered
      split at answered
      · cases answered
        exact Function.update_self ..
      · cases answered

/--
When the write of a success is awaited, `wait` has just been answered, and
docker showed the exit code zero for the container of the run.
-/
theorem shown_of_awaits
    (awaits :
      Awaits dockerHost (DockerEnvHandle.runTaskImpl runHandle) before
        (.inl (.updateRun runHandle.runId dto)) reached)
    (succeeding : dto.status = .succeed) :
    ∃ container,
      reached.handles runHandle.runId = some container ∧
        (reached.containers container).stateExitCode = some 0 := by
  rcases awaits.of_bind with checking | ⟨⟨isRunAllowed, task⟩, checked, _, rest⟩
  · exact (not_awaits_of_notSucceeding isTaskActive_notSucceeding succeeding checking).elim
  cases isRunAllowed with
  | false => exact (Awaits.not_settled rest).elim
  | true =>
      rcases rest.of_bind with reading | ⟨taskConfig, read, _, rest⟩
      · exact (not_awaits_of_notSucceeding configOf_notSucceeding succeeding reading).elim
      rcases rest.of_bind with launching | ⟨envHandle, launched, _, rest⟩
      · exact (not_awaits_of_notSucceeding runExecutable_notSucceeding succeeding
          launching).elim
      rcases rest.of_bind with starting | ⟨_, started, start, rest⟩
      · exact (not_awaits_of_notSucceeding start_notSucceeding succeeding starting).elim
      rcases rest.of_bind with waiting | ⟨exitCode, waited, wait, rest⟩
      · cases wait_awaits.of_awaits waiting
      rcases rest.of_bind with finishing | ⟨_, finished, _, rest⟩
      · cases finishing with
        | later _ rest => exact (Awaits.not_settled rest).elim
        | here =>
            have isZero : (exitCode == JsNumber.finite 0) = true := by
              by_contra other
              simp only [Bool.not_eq_true] at other
              simp [other] at succeeding
            obtain ⟨code, shown, read⟩ := DockerEnvHandle.wait_resolves wait
            refine ⟨envHandle.container, ?_, ?_⟩
            · rw [handles_of_wait wait]
              exact handles_of_start start
            · rw [read, beq_iff_eq, JsNumber.finite.injEq] at isZero
              rw [shown, Int.cast_eq_zero.mp isZero]
      rcases rest.of_bind with deleting | ⟨_, deleted, _, rest⟩
      · exact (not_awaits_of_notSucceeding delete_notSucceeding succeeding deleting).elim
      · exact (not_awaits_of_notSucceeding stopAtLimit_notSucceeding succeeding rest).elim

end Awaiting

/--
A run that is reported as succeeded has a container that has terminated with
zero, however the containers go on until the write, if and only if the command
that told the exit code was answered after the container had terminated.
-/
theorem succeeded_terminated_iff
    (runHandle : TaskRunHandle)
    (before reached : DockerWorld)
    (dto : UpdateTaskRunDto)
    (awaits :
      Awaits dockerHost (DockerEnvHandle.runTaskImpl runHandle) before
        (.inl (.updateRun runHandle.runId dto)) reached)
    (succeeding : dto.status = .succeed) :
    ∃ container,
      reached.handles runHandle.runId = some container ∧
        ((∀ events,
            ((reached.evolve events).containers container).exitCode? = some 0) ↔
          (reached.containers container).exitCode?.isSome) := by
  obtain ⟨container, handle, shown⟩ := shown_of_awaits awaits succeeding
  refine ⟨container, handle, ?_, ?_⟩
  · intro terminated
    exact Option.isSome_iff_exists.mpr ⟨0, terminated []⟩
  · intro terminated events
    refine DockerWorld.exitCode_evolve ?_
    obtain ⟨exitCode, isExitCode⟩ := Option.isSome_iff_exists.mp terminated
    rw [isExitCode, ← ContainerStatus.stateExitCode_of_exitCode shown isExitCode]

/-- The answers to a run of an active task, whose container gets a name. -/
def activeAnswers : TaskAnswers
  | .findTaskById id =>
      .ok (some
        { id
          name := "1_report"
          userId := 1
          groupId := 1
          config :=
            { name := "report"
              envInfo := { name := "alpine" }
              config :=
                { scheduleConfig := "* * * * *"
                  appConfig := { steps := [] } } }
          active := true })
  | .runEnv _ _ => .ok "prescott_1_a"
  | .updateRun _ _ => .ok ()
  | _ => .error (.failure "")

/-- No container has been created, and no run has started. -/
def DockerWorld.empty : DockerWorld where
  containers := fun _ => .absent
  handles := fun _ => none

/-- The container of the run with number one has been created. -/
def startedWorld : DockerWorld where
  containers := Function.update (fun _ => .absent) "prescott_1_a" .created
  handles := Function.update (fun _ => none) 1 (some "prescott_1_a")

/-- A run gets to the write of a success if its `wait` resolves with zero. -/
theorem awaits_of_wait
    {reached : DockerWorld}
    (waits :
      Settles dockerHost (DockerEnvHandle.wait ⟨"prescott_1_a"⟩) startedWorld
        (.ok (.finite 0)) reached) :
    Awaits dockerHost (DockerEnvHandle.runTaskImpl ⟨1, 1, .finite 1⟩) .empty
      (.inl (.updateRun 1 { status := .succeed })) reached := by
  refine .later
    (show dockerHost (.inl (.findTaskById 1)) ([], .inl activeAnswers) _ =
        some (.ok _, _)
      from rfl) ?_
  refine .later
    (show dockerHost (.inl (.runEnv "prescott_1" none)) ([], .inl activeAnswers) _ =
        some (.ok "prescott_1_a", _)
      from rfl) ?_
  refine .later
    (show dockerHost
        (.inl (.updateRun 1 { status := .running, handleId := some "prescott_1_a" }))
        ([], .inl activeAnswers) _ =
        some (.ok (), startedWorld)
      from rfl) ?_
  show Awaits dockerHost (DockerEnvHandle.wait _ >>= _) _ _ _
  exact .bind waits .here

/-- `docker wait` is answered when the container has exited with zero. -/
theorem succeeded_terminated_iff_waited :
    ∃ (reached : DockerWorld) (container : String),
      reached.handles 1 = some container ∧
        reached.containers container = .exited 0 ∧
        ∀ events, ((reached.evolve events).containers container).exitCode? = some 0 := by
  have waits :
      Settles dockerHost (DockerEnvHandle.wait ⟨"prescott_1_a"⟩) startedWorld
        (.ok (.finite 0))
        (startedWorld.evolve [("prescott_1_a", .start), ("prescott_1_a", .exit 0)]) := by
    refine Settles.tryCatch_iff.mpr (.inl ⟨_, Settles.await_iff.mpr
      ⟨([("prescott_1_a", .start), ("prescott_1_a", .exit 0)],
        .inr (.waited "prescott_1_a")), _, _, rfl, .settled _ _⟩, ?_⟩)
    exact congrArg Except.ok (JsNumber.parseInt_repr 0).symm
  obtain ⟨container, handle, terminated⟩ :=
    succeeded_terminated_iff ⟨1, 1, .finite 1⟩ .empty _ _ (awaits_of_wait waits) rfl
  cases show some "prescott_1_a" = some container from handle
  exact ⟨_, _, handle, rfl, terminated.mpr rfl⟩

/--
`docker wait` fails while the container is running, and inspecting it tells the
exit code zero: the write of a success is awaited.
-/
theorem succeeded_running :
    ∃ reached : DockerWorld,
      Awaits dockerHost (DockerEnvHandle.runTaskImpl ⟨1, 1, .finite 1⟩) .empty
          (.inl (.updateRun 1 { status := .succeed })) reached ∧
        reached.handles 1 = some "prescott_1_a" ∧
        reached.containers "prescott_1_a" = .running := by
  have waits :
      Settles dockerHost (DockerEnvHandle.wait ⟨"prescott_1_a"⟩) startedWorld
        (.ok (.finite 0)) (startedWorld.evolve [("prescott_1_a", .start)]) := by
    refine Settles.tryCatch_iff.mpr (.inr ⟨.failure "", _, Settles.await_iff.mpr
      ⟨([("prescott_1_a", .start)], .inr (.refused "")), _, _, rfl, .settled _ _⟩, ?_⟩)
    refine Settles.bind_iff.mpr (.inl ⟨["0".toList], _, Settles.await_iff.mpr
      ⟨([], .inr (.inspected "prescott_1_a")), _, _, rfl, .settled _ _⟩, ?_⟩)
    exact Settles.pure_iff.mpr
      ⟨congrArg Except.ok (JsNumber.parseInt_repr 0).symm, rfl⟩
  exact ⟨_, awaits_of_wait waits, rfl, rfl⟩

end Prescott
