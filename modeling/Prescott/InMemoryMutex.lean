import Prescott.AsyncProgram

namespace Prescott

/-!
# The in-memory mutex

`InMemoryMutex.run` over any signature that can test and mark a resource,
unmark it, and wait for a timer.
-/

/-- The actions of a mutex in some signature. -/
structure MutexActions (S : Signature) (ε : Type) where
  /-- Mark the resource unless it is marked; resolves with whether it was free. -/
  lock : String → Async S ε Bool
  /-- Unmark the resource. -/
  unlock : String → Async S ε Unit
  setTimeout : Nat → Async S ε Unit
  failure : String → ε

/-- An `InMemoryMutex`. -/
structure InMemoryMutex where
  retryTimeout : Nat
  retryNumber : Nat
  deriving Repr, DecidableEq

namespace InMemoryMutex

variable {S : Signature}
variable {ε α : Type}

/--
`runImpl`, counting the remaining retries down where the source counts
`retryIdx` up.
-/
def runImpl
    (mutex : InMemoryMutex)
    (actions : MutexActions S ε)
    (resource : String)
    (fn : Async S ε α) :
    (retriesLeft : Nat) → Async S ε α
  | 0 =>
      throw (actions.failure
        s!"InMemoryMutex: [{mutex.retryNumber}] retries exceeded for {resource}")
  | retriesLeft + 1 => do
      match ← actions.lock resource with
      | false => do
          actions.setTimeout mutex.retryTimeout
          mutex.runImpl actions resource fn retriesLeft
      | true =>
          fn.finallyDo (actions.unlock resource)

/-- `run`: lock the label, call the function, and unlock in any case. -/
def run
    (mutex : InMemoryMutex)
    (actions : MutexActions S ε)
    (label : String)
    (fn : Async S ε α) :
    Async S ε α :=
  mutex.runImpl actions label fn mutex.retryNumber

end InMemoryMutex

end Prescott
