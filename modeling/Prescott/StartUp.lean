import Prescott.RunEndings

namespace Prescott

/-!
# The start-up among the other calls

The server awaits `registerFromDatabase` before it listens to requests.  But
the queue begins executors as soon as they are enqueued, and the entries of the
tasks that have been registered fire once their images are built, while the
start-up still goes on with the other tasks.
-/

/-- How far `registerFromDatabase` is, and the tasks that it has still to register. -/
inductive StartUpPhase where
  | finding
  | scanning (task : Task) (rest : List Task)
  /-- An executor is enqueued next, and then the others of the task. -/
  | enqueueing
      (task : Task) (runHandle : TaskRunHandle) (others : List TaskRunHandle)
      (rest : List Task)
  | checkingEntry (task : Task) (rest : List Task)
  | scheduling (task : Task) (rest : List Task)
  | dispatching (task : Task) (rest : List Task)
  | settled (resolved : Bool)

/-- The handle that `enqueuePendingRuns` makes of a run. -/
def Task.handleOf (task : Task) (taskRun : TaskRun) : TaskRunHandle where
  taskId := task.id
  runId := taskRun.id
  runRank := taskRun.rank

namespace StartUpPhase

/-- The loop over the tasks goes on with the next one. -/
def loop : List Task → StartUpPhase
  | [] => .settled true
  | task :: rest => .scanning task rest

/-- The loop over the pending runs of a task goes on with the next one. -/
def enqueues (task : Task) (rest : List Task) : List TaskRunHandle → StartUpPhase
  | [] => .checkingEntry task rest
  | runHandle :: others => .enqueueing task runHandle others rest

/-- The operation that may be awaited next. -/
def permits : StartUpPhase → TaskOp → Prop
  | .finding, op => op = .findTasksByActive true
  | .scanning task _, op => op = .findRunsByTaskAndStatus task.id .pending
  | .enqueueing _ runHandle _ _, op => op = .enqueue runHandle
  | .checkingEntry task _, op => op = .schedulerExists task.id
  | .scheduling task _, op =>
      op = .schedulerSchedule task.id task.config.config.scheduleConfig
  | .dispatching task _, op => op = .dispatchBuild task.id task.config
  | .settled _, _ => False

/-- The phase after an answer. -/
def advance (phase : StartUpPhase) (op : TaskOp)
    (answer : Except AppError op.Result) : StartUpPhase :=
  match phase, op, answer with
  | .finding, .findTasksByActive _, .ok tasks => loop tasks
  | .scanning task rest, .findRunsByTaskAndStatus _ _, .ok pendingRuns =>
      enqueues task rest (pendingRuns.map task.handleOf)
  | .enqueueing task _ others rest, .enqueue _, .ok _ => enqueues task rest others
  | .checkingEntry _ rest, .schedulerExists _, .ok true => loop rest
  | .checkingEntry task rest, .schedulerExists _, .ok false => .scheduling task rest
  | .scheduling task rest, .schedulerSchedule _ _, .ok _ => .dispatching task rest
  | .dispatching _ rest, .dispatchBuild _ _, .ok _ => loop rest
  | _, _, _ => .settled false

end StartUpPhase

/-- The protocol of the start-up. -/
abbrev startUpProtocol : Protocol taskSignature AppError Unit Unit where
  Phase := StartUpPhase
  start := fun _ => .finding
  permits := fun _ => StartUpPhase.permits
  advance := fun _ => StartUpPhase.advance
  finishes := fun _ phase outcome => phase = .settled outcome.isOk

namespace StartUpPhase

variable {task : Task}
variable {rest : List Task}

/-- A part of the start-up leads to one phase, or the start-up fails. -/
def comesTo (resolved : StartUpPhase) : Except AppError Unit → StartUpPhase → Prop
  | .ok _, phase => phase = resolved
  | .error _, phase => phase = .settled false

theorem leads_enqueueRuns
    (pendingRuns : List TaskRun) :
    startUpProtocol.Leads () (comesTo (.checkingEntry task rest))
      (enqueues task rest (pendingRuns.map task.handleOf))
      (forM pendingRuns fun taskRun =>
        TaskExecutorService.enqueueExecutable (task.handleOf taskRun)) := by
  induction pendingRuns with
  | nil => rfl
  | cons taskRun others inductionHypothesis =>
      rw [List.forM_cons]
      exact Protocol.leads_perform_bind.mpr
        ⟨rfl, fun _ => inductionHypothesis, fun _ => rfl⟩

theorem leads_enqueuePendingRuns :
    startUpProtocol.Leads () (comesTo (.checkingEntry task rest)) (.scanning task rest)
      (TaskService.enqueuePendingRuns task) :=
  Protocol.leads_perform_bind.mpr
    ⟨rfl, fun pendingRuns => leads_enqueueRuns pendingRuns, fun _ => rfl⟩

theorem leads_register :
    startUpProtocol.Leads () (comesTo (loop rest)) (.checkingEntry task rest)
      (TaskService.register task.id task.config) := by
  refine Protocol.leads_perform_bind.mpr ⟨rfl, fun found => ?_, fun _ => rfl⟩
  cases found with
  | true => rfl
  | false =>
      refine Protocol.leads_perform_bind.mpr ⟨rfl, fun _ => ?_, fun _ => rfl⟩
      exact ⟨rfl, fun answer => by cases answer <;> rfl⟩

/-- The tasks are registered one after the other. -/
theorem leads_registerTasks
    (tasks : List Task) :
    startUpProtocol.Leads () (comesTo (.settled true)) (loop tasks)
      (forM tasks fun task => do
        TaskService.enqueuePendingRuns task
        TaskService.register task.id task.config) := by
  induction tasks with
  | nil => rfl
  | cons task others inductionHypothesis =>
      rw [List.forM_cons]
      have registers :
          startUpProtocol.Leads () (comesTo (loop others)) (.scanning task others)
            (do
              TaskService.enqueuePendingRuns task
              TaskService.register task.id task.config) := by
        refine leads_enqueuePendingRuns.bind ?_ fun _ _ failed => failed
        rintro _ _ rfl
        exact leads_register
      refine registers.bind ?_ fun _ _ failed => failed
      rintro _ _ rfl
      exact inductionHypothesis

theorem conforms_registerFromDatabase :
    startUpProtocol.Conforms () .finding TaskService.registerFromDatabase := by
  refine Protocol.conforms_perform_bind.mpr ⟨rfl, fun tasks => ?_, fun _ => rfl⟩
  refine (leads_registerTasks tasks).mono ?_
  rintro (_ | _) _ rfl <;> rfl

end StartUpPhase

/-- The call comes from a client, whom the server does not listen to yet. -/
def TaskCall.isClientRequest : TaskCall → Bool
  | .createTask _ _ _ | .deleteTask _ | .stopTask _ | .startTask _ | .updateTask _ _ => true
  | .build _ _ | .callback _ | .executor _ | .exit _ _ => false

/-- The task services while the server starts. -/
def startingServices (config : TaskServerConfig) :
    Service taskSignature AppError TaskState TaskInput TaskCall TaskReply :=
  { taskServices config with
    begin? := fun call state =>
      if call.isClientRequest then none else beginTaskCall config call state }

/-- A process that starts: the calls that it has begun, and its start-up. -/
structure StartUp where
  calls : Interleaving TaskState taskProtocol
  registration : Process startUpProtocol

/-- One of the calls takes a turn, or the start-up gets its next answer. -/
inductive StartUpTurn where
  | calls (turn : Turn TaskCall TaskInput)
  | registers (input : TaskInput)
  deriving Repr, DecidableEq

namespace StartUp

/-- A new process finds what a crash has left. -/
def initial (crashed : TaskState) : StartUp where
  calls := .initial taskProtocol crashed.restarted
  registration := ⟨(), .finding, TaskService.registerFromDatabase⟩

/-- Let a turn happen, where it is possible. -/
def step? (config : TaskServerConfig) (before : StartUp) : StartUpTurn → Option StartUp
  | .calls turn =>
      (before.calls.step? (startingServices config) turn).map fun calls =>
        { before with calls }
  | .registers input =>
      match before.registration.residual with
      | .settled _ => none
      | .await op resume =>
          (taskHost config op input before.calls.shared).map fun (answer, shared) =>
            { calls := { before.calls with shared }
              registration :=
                ⟨(), before.registration.phase.advance op answer, resume answer⟩ }

/-- A turn that a condition allows. -/
def Step
    (config : TaskServerConfig)
    (allowed : StartUp → StartUpTurn → Prop)
    (before : StartUp)
    (turn : StartUpTurn)
    (after : StartUp) :
    Prop :=
  allowed before turn ∧ before.step? config turn = some after

/-- `registerFromDatabase` has resolved. -/
def Completed (state : StartUp) : Prop :=
  state.registration.residual = .settled (.ok ())

/-- All programs are in the phases they are said to be in. -/
structure Conforming (state : StartUp) : Prop where
  calls : state.calls.Conforming
  registration :
    startUpProtocol.Conforms () state.registration.phase state.registration.residual

/-- What a turn changes, seen from outside. -/
inductive Moves (config : TaskServerConfig) (before : StartUp) :
    StartUpTurn → TaskView → StartUpPhase → Prop where
  | begins
      {pid : Nat}
      {call : TaskCall}
      {shared : TaskState}
      (fresh : before.calls.view.progress pid = none)
      (notRequest : call.isClientRequest = false)
      (begun : beginTaskCall config call before.calls.shared = some shared) :
      Moves config before (.calls (.invoke pid call))
        (before.calls.view.place pid ⟨call, taskProtocol.start call⟩ shared)
        before.registration.phase
  | resumes
      {pid : Nat}
      {call : TaskCall}
      {phase : TaskPhase}
      {op : TaskOp}
      {input : TaskInput}
      {answer : Except AppError op.Result}
      {shared : TaskState}
      (present : before.calls.view.progress pid = some ⟨call, phase⟩)
      (permitted : phase.permits call op)
      (answered : taskHost config op input before.calls.shared = some (answer, shared)) :
      Moves config before (.calls (.resume pid input))
        (before.calls.view.place pid ⟨call, phase.advance call op answer⟩ shared)
        before.registration.phase
  | registers
      {op : TaskOp}
      {input : TaskInput}
      {answer : Except AppError op.Result}
      {shared : TaskState}
      (permitted : before.registration.phase.permits op)
      (answered : taskHost config op input before.calls.shared = some (answer, shared)) :
      Moves config before (.registers input) { before.calls.view with shared }
        (before.registration.phase.advance op answer)

variable {config : TaskServerConfig}
variable {before after : StartUp}
variable {turn : StartUpTurn}

theorem initial_conforming
    (crashed : TaskState) :
    (initial crashed).Conforming where
  calls := by
    rintro pid process ⟨⟩
  registration := StartUpPhase.conforms_registerFromDatabase

/-- A turn of a starting process is one of the moves. -/
theorem moves_of_step
    (conforming : before.Conforming)
    (stepped : before.step? config turn = some after) :
    Moves config before turn after.calls.view after.registration.phase ∧
      after.Conforming := by
  cases turn with
  | calls turn =>
      obtain ⟨calls, taken, rfl⟩ := Option.map_eq_some_iff.mp stepped
      have taken :
          Interleaving.Step (startingServices config) (fun _ _ => True) before.calls turn
            calls :=
        ⟨trivial, taken⟩
      obtain ⟨moves, stillConforming⟩ :=
        taken.moves TaskPhase.conforms_taskBody conforming.calls
      refine ⟨?_, stillConforming, conforming.registration⟩
      change Moves config before (.calls turn) calls.view before.registration.phase
      generalize calls.view = view at moves
      cases moves with
      | @invoke _ call shared fresh begun =>
          simp only [startingServices] at begun
          split at begun
          · cases begun
          · rename_i notRequest
            exact .begins fresh (Bool.eq_false_iff.mpr notRequest) begun
      | resume present permitted answered => exact .resumes present permitted answered
  | registers input =>
      simp only [step?] at stepped
      have conforms := conforming.registration
      split at stepped
      · cases stepped
      · rename_i op resume awaiting
        obtain ⟨⟨answer, shared⟩, answered, rfl⟩ := Option.map_eq_some_iff.mp stepped
        rw [awaiting] at conforms
        exact ⟨.registers conforms.1 answered, conforming.calls, conforms.2 answer⟩

/-- What every turn within a condition keeps holds at the end of a run. -/
theorem invariant_of_run
    {allowed : StartUp → StartUpTurn → Prop}
    {start final : StartUp}
    {turns : List StartUpTurn}
    (holds : StartUpPhase → TaskView → Prop)
    (kept :
      ∀ before turn view phase,
        allowed before turn →
        holds before.registration.phase before.calls.view →
        Moves config before turn view phase →
        holds phase view)
    (conforming : start.Conforming)
    (initially : holds start.registration.phase start.calls.view)
    (run : Run (Step config allowed) start turns final) :
    holds final.registration.phase final.calls.view ∧ final.Conforming := by
  refine run.invariant
    (fun state => holds state.registration.phase state.calls.view ∧ state.Conforming)
    ?_ ⟨initially, conforming⟩
  rintro before turn after ⟨held, conforming⟩ ⟨isAllowed, stepped⟩
  obtain ⟨moves, stillConforming⟩ := moves_of_step conforming stepped
  exact ⟨kept before turn _ _ isAllowed held moves, stillConforming⟩

/-- A start-up that has resolved has no phase before it. -/
theorem Completed.phase_eq
    {state : StartUp}
    (completed : state.Completed)
    (conforming : state.Conforming) :
    state.registration.phase = .settled true := by
  have conforms := conforming.registration
  rw [show state.registration.residual = .settled (.ok ()) from completed] at conforms
  exact conforms

end StartUp

end Prescott
