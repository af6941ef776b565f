import Mathlib.Data.List.Basic
import Prescott.TransitionSystem

namespace Prescott

/-!
# The in-memory task queue

`in-memory-task-queue.ts` keeps a buffer of decorated executors and a counter
of the running ones.  `executeNext` is asynchronous but never awaited, so its
synchronous part runs inside its caller; an executor may call `enqueue` again
before its first `await`.  The model makes that call stack explicit: one step
is one stretch of synchronous code, and an event of the queue is over when the
stack is empty.
-/

/-- The value an executor rejects with, as `errorToReason` inspects it. -/
inductive Thrown where
  /-- An instance of `Error` with its message. -/
  | error (message : String)
  | text (value : String)
  /-- Anything else; `none` when converting it to a string throws. -/
  | other (rendering : Option String)
  deriving Repr, DecidableEq

/-- `errorToReason`; `none` when the template literal throws. -/
def errorToReason : Thrown → Option String
  | .error message => some message
  | .text value => some value
  | .other rendering =>
      rendering.map fun shown => s!"Unknown error: {shown}"

/-- How an executor settles. -/
inductive Settlement where
  | resolved
  | rejected (reason : Thrown)
  deriving Repr, DecidableEq

/-- An executor pushed to the buffer, with the number of pushes before it. -/
structure Executor where
  taskId : Nat
  ticket : Nat
  deriving Repr, DecidableEq

/--
The promise of `decorateExecutorFn(taskId, executorFn)`: a rejection is logged
and swallowed unless logging its reason throws.
-/
def decorateExecutorFn (taskId : Nat) :
    Settlement → Settlement × List String
  | .resolved => (.resolved, [])
  | .rejected reason =>
      match errorToReason reason with
      | some shown =>
          (.resolved,
            [s!"executeNext[taskId={taskId}]: failed - {shown}"])
      | none =>
          (.rejected (.error "Cannot convert to string"), [])

/-- A synchronous call in progress. -/
inductive QueueFrame where
  /-- `executeNext` is entered. -/
  | executeNext
  /-- `nextTask()` is called and its executor has not yet awaited anything. -/
  | executing (executor : Executor)
  deriving Repr, DecidableEq

/--
The state of the queue module.  `enqueued`, `started` and `finished` record
the executors in the order of these events.
-/
structure QueueState where
  queue : List Executor := []
  running : Int := 0
  stack : List QueueFrame := []
  enqueued : List Executor := []
  started : List Executor := []
  finished : List Executor := []
  warnings : List String := []
  deriving Repr, DecidableEq

/-- The stretches of synchronous code that change the queue. -/
inductive QueueAction where
  /-- `enqueue`, from the event loop or from inside a running executor. -/
  | enqueue (taskId : Nat)
  /-- The synchronous part of `executeNext` up to the call of `nextTask`. -/
  | executeNext
  /-- The innermost executor reaches its first `await`. -/
  | suspend
  /-- A started executor settles; the `finally` block runs. -/
  | settle (executor : Executor) (settlement : Settlement)
  deriving Repr, DecidableEq

namespace QueueState

/-- No queue code is on the call stack. -/
def Idle (state : QueueState) : Prop :=
  state.stack = []

instance (state : QueueState) : Decidable state.Idle :=
  inferInstanceAs (Decidable (state.stack = []))

/-- The executors that are started and not finished. -/
def active (state : QueueState) : List Executor :=
  state.started.filter fun executor => executor ∉ state.finished

/-- Whether `enqueue` can be called: by the event loop or by an executor. -/
def acceptsCall (state : QueueState) : Bool :=
  match state.stack with
  | [] => true
  | .executing _ :: _ => true
  | .executeNext :: _ => false

/-- `enqueue`: push the decorated executor and call `executeNext`. -/
def enqueue (state : QueueState) (taskId : Nat) : QueueState :=
  let executor : Executor := ⟨taskId, state.enqueued.length⟩
  { state with
    queue := state.queue ++ [executor]
    enqueued := state.enqueued ++ [executor]
    stack := .executeNext :: state.stack }

/-- `executeNext` up to the call of `nextTask`; `rest` is its caller's stack. -/
def executeNext
    (maxConcurrency : Int)
    (state : QueueState)
    (rest : List QueueFrame) :
    QueueState :=
  if state.running ≥ maxConcurrency then
    { state with stack := rest }
  else
    match state.queue with
    | [] => { state with stack := rest }
    | nextTask :: queue =>
        { state with
          queue
          running := state.running + 1
          started := state.started ++ [nextTask]
          stack := .executing nextTask :: rest }

/-- The `finally` block: free the slot and call `executeNext`. -/
def settle
    (state : QueueState)
    (executor : Executor)
    (settlement : Settlement) :
    QueueState :=
  { state with
    running := state.running - 1
    finished := state.finished ++ [executor]
    warnings :=
      state.warnings ++
        (decorateExecutorFn executor.taskId settlement).2
    stack := [.executeNext] }

/-- One stretch of synchronous code, where it is possible. -/
def step?
    (maxConcurrency : Int)
    (state : QueueState) :
    QueueAction → Option QueueState
  | .enqueue taskId =>
      if state.acceptsCall then
        some (state.enqueue taskId)
      else
        none
  | .executeNext =>
      match state.stack with
      | .executeNext :: rest => some (state.executeNext maxConcurrency rest)
      | _ => none
  | .suspend =>
      match state.stack with
      | .executing _ :: rest => some { state with stack := rest }
      | _ => none
  | .settle executor settlement =>
      if state.stack = [] ∧ executor ∈ state.active then
        some (state.settle executor settlement)
      else
        none

/-- The transition relation of the queue. -/
def Step
    (maxConcurrency : Int)
    (before : QueueState)
    (action : QueueAction)
    (after : QueueState) :
    Prop :=
  before.step? maxConcurrency action = some after

/-- What one stretch of synchronous code can do. -/
theorem step_cases
    {maxConcurrency : Int}
    {before after : QueueState}
    {action : QueueAction}
    (taken : Step maxConcurrency before action after) :
    (∃ taskId,
      before.acceptsCall = true ∧ after = before.enqueue taskId) ∨
    (∃ rest,
      before.stack = .executeNext :: rest ∧
        after = before.executeNext maxConcurrency rest) ∨
    (∃ executor rest,
      before.stack = .executing executor :: rest ∧
        after = { before with stack := rest }) ∨
    (∃ executor settlement,
      before.stack = [] ∧
        executor ∈ before.active ∧
        after = before.settle executor settlement) := by
  unfold Step at taken
  cases action with
  | enqueue taskId =>
      simp only [step?, Option.ite_none_right_eq_some,
        Option.some.injEq] at taken
      exact .inl ⟨taskId, taken.1, taken.2.symm⟩
  | executeNext =>
      simp only [step?] at taken
      split at taken
      · rename_i rest shape
        exact .inr (.inl ⟨rest, shape, (Option.some.inj taken).symm⟩)
      · cases taken
  | suspend =>
      simp only [step?] at taken
      split at taken
      · rename_i executor rest shape
        exact .inr (.inr (.inl
          ⟨executor, rest, shape, (Option.some.inj taken).symm⟩))
      · cases taken
  | settle executor settlement =>
      simp only [step?, Option.ite_none_right_eq_some,
        Option.some.injEq] at taken
      exact .inr (.inr (.inr
        ⟨executor, settlement, taken.1.1, taken.1.2, taken.2.symm⟩))

end QueueState

end Prescott
