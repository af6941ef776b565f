import Mathlib.Data.Finset.Basic
import Mathlib.Logic.Function.Basic
import Prescott.InMemoryMutex
import Prescott.TransitionSystem

namespace Prescott

/-!
# Runs of a mutex

Any number of calls of `InMemoryMutex.run` share one mutex.  The code between
two awaits is not interrupted: a call goes on until it awaits its timer or its
function.  A function is called in the same stretch of code that locks its
label; it may throw at once, or return a promise that settles at a later turn
of the event loop, and before that it may itself call `run`.
-/

/-- The operations of a call of `run`. -/
inductive MutexOp where
  | lock (resource : String)
  | unlock (resource : String)
  | setTimeout (delay : Nat)
  | fn
  deriving Repr, DecidableEq

/-- The operations with what they resolve with. -/
abbrev mutexSignature (Value : Type) : Signature where
  Op := MutexOp
  Result
    | .lock _ => Bool
    | .unlock _ => Unit
    | .setTimeout _ => Unit
    | .fn => Value

/-- Why a call rejects: by the mutex itself, or with the function's reason. -/
inductive MutexFailure (Reason : Type) where
  | retriesExceeded (message : String)
  | failed (reason : Reason)
  deriving Repr, DecidableEq

/-- A call of `run`. -/
abbrev MutexProgram (Reason Value : Type) :=
  Async (mutexSignature Value) (MutexFailure Reason)

/-- What a call finds and does on its way. -/
inductive MutexEvent where
  | checked (locked : Bool)
  | invoked
  deriving Repr, DecidableEq

section

variable {Reason Value : Type}

/-- Await an operation. -/
def MutexOp.perform (op : MutexOp) :
    MutexProgram Reason Value ((mutexSignature Value).Result op) :=
  @Async.perform (mutexSignature Value) _ op

/-- What the mutex calls. -/
def mutexActions :
    MutexActions (mutexSignature Value) (MutexFailure Reason) where
  lock resource := MutexOp.perform (.lock resource)
  unlock resource := MutexOp.perform (.unlock resource)
  setTimeout delay := MutexOp.perform (.setTimeout delay)
  failure := .retriesExceeded

/-- Whether a call waits for the outcome of its function. -/
def MutexProgram.awaitsFn : MutexProgram Reason Value Value → Bool
  | .await .fn _ => true
  | _ => false

/-- Where a stretch of code ends, what it left locked, and what happened. -/
structure MutexSegment (Reason Value : Type) where
  residual : MutexProgram Reason Value Value
  lockedResources : Finset String
  events : List MutexEvent

/-- Go on until the timer or the function is awaited. -/
def MutexProgram.untilAwait :
    MutexProgram Reason Value Value → Finset String → MutexSegment Reason Value
  | .settled outcome, locked => ⟨.settled outcome, locked, []⟩
  | .await (.lock resource) resume, locked =>
      if resource ∈ locked then
        let segment := untilAwait (resume (.ok false)) locked
        { segment with events := .checked true :: segment.events }
      else
        let segment := untilAwait (resume (.ok true)) (insert resource locked)
        { segment with events := .checked false :: segment.events }
  | .await (.unlock resource) resume, locked =>
      untilAwait (resume (.ok ())) (locked.erase resource)
  | .await (.setTimeout delay) resume, locked =>
      ⟨.await (.setTimeout delay) resume, locked, []⟩
  | .await .fn resume, locked => ⟨.await .fn resume, locked, [.invoked]⟩

/-- A call of `run` that has begun. -/
structure MutexCall (Reason Value : Type) where
  label : String
  residual : MutexProgram Reason Value Value
  events : List MutexEvent

/-- A mutex with the calls made so far. -/
structure MutexState (Reason Value : Type) where
  lockedResources : Finset String := ∅
  calls : Nat → Option (MutexCall Reason Value) := fun _ => none
  /-- The calls whose functions are running code, the innermost first. -/
  callStack : List Nat := []

/-- What happens next, in the order of the event loop. -/
inductive MutexTurn (Reason Value : Type) where
  /-- `run` is called. -/
  | run (pid : Nat) (label : String)
  /-- The innermost function throws. -/
  | throws (pid : Nat) (reason : Reason)
  /-- The innermost function returns its promise. -/
  | returns (pid : Nat)
  /-- The promise of a function has settled, and its call goes on. -/
  | settles (pid : Nat) (outcome : Except Reason Value)
  /-- The timer of a call fires. -/
  | timer (pid : Nat)
  deriving Repr, DecidableEq

/-- The call whose turn it is. -/
def MutexTurn.pid : MutexTurn Reason Value → Nat
  | .run pid _ => pid
  | .throws pid _ => pid
  | .returns pid => pid
  | .settles pid _ => pid
  | .timer pid => pid

namespace MutexState

/-- A call runs to its next await. -/
def goOn
    (state : MutexState Reason Value)
    (pid : Nat)
    (label : String)
    (events : List MutexEvent)
    (program : MutexProgram Reason Value Value) :
    MutexState Reason Value :=
  let segment := program.untilAwait state.lockedResources
  { lockedResources := segment.lockedResources
    calls :=
      Function.update state.calls pid
        (some
          { label
            residual := segment.residual
            events := events ++ segment.events })
    callStack :=
      if segment.residual.awaitsFn then pid :: state.callStack
      else state.callStack }

/-- The transitions: timers and promises wait until no code is running. -/
def step?
    (mutex : InMemoryMutex)
    (state : MutexState Reason Value) :
    MutexTurn Reason Value → Option (MutexState Reason Value)
  | .run pid label =>
      match state.calls pid with
      | some _ => none
      | none =>
          some (state.goOn pid label []
            (mutex.run mutexActions label (MutexOp.perform .fn)))
  | .throws pid reason =>
      match state.callStack, state.calls pid with
      | top :: rest, some ⟨label, .await .fn resume, events⟩ =>
          if top = pid then
            some (goOn { state with callStack := rest } pid label events
              (resume (.error (.failed reason))))
          else
            none
      | _, _ => none
  | .returns pid =>
      match state.callStack with
      | top :: rest =>
          if top = pid then some { state with callStack := rest } else none
      | [] => none
  | .settles pid outcome =>
      match state.callStack, state.calls pid with
      | [], some ⟨label, .await .fn resume, events⟩ =>
          some (state.goOn pid label events
            (resume (outcome.mapError .failed)))
      | _, _ => none
  | .timer pid =>
      match state.callStack, state.calls pid with
      | [], some ⟨label, .await (.setTimeout _) resume, events⟩ =>
          some (state.goOn pid label events (resume (.ok ())))
      | _, _ => none

/-- The call has invoked its function and has not received its outcome. -/
def InProgress
    (state : MutexState Reason Value)
    (pid : Nat)
    (label : String) :
    Prop :=
  ∃ call,
    state.calls pid = some call ∧
      call.label = label ∧ call.residual.awaitsFn = true

end MutexState

namespace InMemoryMutex

variable (mutex : InMemoryMutex)

/-- The call has found its label locked and waits. -/
def waiting (label : String) (retriesLeft : Nat) : MutexProgram Reason Value Value := do
  mutexActions.setTimeout mutex.retryTimeout
  mutex.runImpl mutexActions label (MutexOp.perform .fn) retriesLeft

/-- The call has locked its label and awaits its function. -/
def running (label : String) : MutexProgram Reason Value Value :=
  (MutexOp.perform .fn).finallyDo (mutexActions.unlock label)

/-- The call has given up. -/
def gaveUp (label : String) : MutexProgram Reason Value Value :=
  throw (.retriesExceeded
    s!"InMemoryMutex: [{mutex.retryNumber}] retries exceeded for {label}")

/-- A check either locks the label and invokes the function, or finds it locked. -/
theorem untilAwait_runImpl
    (label : String)
    (retriesLeft : Nat)
    (locked : Finset String) :
    MutexProgram.untilAwait
        (mutex.runImpl mutexActions label (MutexOp.perform .fn) (retriesLeft + 1) :
          MutexProgram Reason Value Value)
        locked =
      if label ∈ locked then
        ⟨mutex.waiting label retriesLeft, locked, [.checked true]⟩
      else
        ⟨running label, insert label locked, [.checked false, .invoked]⟩ := by
  by_cases isLocked : label ∈ locked
  · rw [if_pos isLocked]
    refine (if_pos isLocked).trans ?_
    rfl
  · rw [if_neg isLocked]
    refine (if_neg isLocked).trans ?_
    rfl

/-- The function's outcome has arrived. -/
def ended (label : String) (outcome : Except (MutexFailure Reason) Value) :
    MutexProgram Reason Value Value := do
  mutexActions.unlock label
  .settled outcome

/-- The program and the findings of a call on a label. -/
inductive Shaped (label : String) :
    MutexProgram Reason Value Value → List MutexEvent → Prop where
  | waiting
      {retriesLeft : Nat}
      (checked : retriesLeft < mutex.retryNumber) :
      Shaped label (mutex.waiting label retriesLeft)
        (List.replicate (mutex.retryNumber - retriesLeft) (.checked true))
  | running (events : List MutexEvent) :
      Shaped label (running label) events
  | ended (outcome : Except Reason Value) (events : List MutexEvent) :
      Shaped label (.settled (outcome.mapError .failed)) events
  | gaveUp :
      Shaped label (mutex.gaveUp label)
        (List.replicate mutex.retryNumber (.checked true))

/-- A call that awaits its function unlocks its label when it goes on. -/
theorem Shaped.resume_fn
    {mutex : InMemoryMutex}
    {label : String}
    {events : List MutexEvent}
    {resume :
      Except (MutexFailure Reason) Value → MutexProgram Reason Value Value}
    (shaped :
      mutex.Shaped label
        (@Async.await (mutexSignature Value) _ _ MutexOp.fn resume) events) :
    resume = InMemoryMutex.ended label := by
  generalize shape :
    @Async.await (mutexSignature Value) _ _ MutexOp.fn resume = program at shaped
  cases shaped with
  | waiting checked => cases shape
  | running events =>
      cases shape
      rfl
  | ended outcome events => cases shape
  | gaveUp => cases shape

/-- A call that awaits its timer checks its label when it goes on. -/
theorem Shaped.resume_setTimeout
    {mutex : InMemoryMutex}
    {label : String}
    {delay : Nat}
    {events : List MutexEvent}
    {resume :
      Except (MutexFailure Reason) Unit → MutexProgram Reason Value Value}
    (shaped :
      mutex.Shaped label
        (@Async.await (mutexSignature Value) _ _ (MutexOp.setTimeout delay) resume)
        events) :
    ∃ retriesLeft ≤ mutex.retryNumber,
      events =
          List.replicate (mutex.retryNumber - retriesLeft) (.checked true) ∧
        resume (.ok ()) =
          mutex.runImpl mutexActions label (MutexOp.perform .fn) retriesLeft := by
  generalize shape :
    @Async.await (mutexSignature Value) _ _ (MutexOp.setTimeout delay) resume =
      program at shaped
  cases shaped with
  | @waiting retriesLeft checked =>
      cases shape
      exact ⟨retriesLeft, checked.le, rfl, rfl⟩
  | running events => cases shape
  | ended outcome events => cases shape
  | gaveUp => cases shape

end InMemoryMutex

namespace MutexState

variable {mutex : InMemoryMutex}
variable {state after : MutexState Reason Value}

section GoOn

variable (mutex)
variable (state)
variable (pid : Nat)
variable (label : String)
variable (events : List MutexEvent)

theorem goOn_runImpl_zero :
    state.goOn pid label events
        (mutex.runImpl mutexActions label (MutexOp.perform .fn) 0) =
      { state with
        calls :=
          Function.update state.calls pid
            (some ⟨label, mutex.gaveUp label, events⟩) } := by
  change
    { state with
      calls :=
        Function.update state.calls pid
          (some ⟨label, mutex.gaveUp label, events ++ []⟩) } = _
  rw [List.append_nil]

theorem goOn_runImpl_of_locked
    (retriesLeft : Nat)
    (locked : label ∈ state.lockedResources) :
    state.goOn pid label events
        (mutex.runImpl mutexActions label (MutexOp.perform .fn) (retriesLeft + 1)) =
      { state with
        calls :=
          Function.update state.calls pid
            (some
              ⟨label, mutex.waiting label retriesLeft,
                events ++ [.checked true]⟩) } := by
  rw [goOn, mutex.untilAwait_runImpl, if_pos locked]
  rfl

theorem goOn_runImpl_of_free
    (retriesLeft : Nat)
    (free : label ∉ state.lockedResources) :
    state.goOn pid label events
        (mutex.runImpl mutexActions label (MutexOp.perform .fn) (retriesLeft + 1)) =
      { lockedResources := insert label state.lockedResources
        calls :=
          Function.update state.calls pid
            (some
              ⟨label, InMemoryMutex.running label,
                events ++ [.checked false, .invoked]⟩)
        callStack := pid :: state.callStack } := by
  rw [goOn, mutex.untilAwait_runImpl, if_neg free]
  rfl

theorem goOn_ended (outcome : Except (MutexFailure Reason) Value) :
    state.goOn pid label events (InMemoryMutex.ended label outcome) =
      { state with
        lockedResources := state.lockedResources.erase label
        calls :=
          Function.update state.calls pid
            (some ⟨label, .settled outcome, events⟩) } := by
  change
    { state with
      lockedResources := state.lockedResources.erase label
      calls :=
        Function.update state.calls pid
          (some ⟨label, .settled outcome, events ++ []⟩) } = _
  rw [List.append_nil]

end GoOn

/-- Every call is where a call can be. -/
def Shaped (mutex : InMemoryMutex) (state : MutexState Reason Value) : Prop :=
  ∀ pid call,
    state.calls pid = some call →
      mutex.Shaped call.label call.residual call.events

/-- A turn checks the label of a call, hands it its outcome, or returns a promise. -/
theorem step?_cases
    {turn : MutexTurn Reason Value}
    (shaped : state.Shaped mutex)
    (stepped : state.step? mutex turn = some after) :
    (∃ label retriesLeft,
      retriesLeft ≤ mutex.retryNumber ∧
        (∀ call,
          state.calls turn.pid = some call →
            call.label = label ∧ call.residual.awaitsFn = false) ∧
        after =
          state.goOn turn.pid label
            (List.replicate (mutex.retryNumber - retriesLeft) (.checked true))
            (mutex.runImpl mutexActions label (MutexOp.perform .fn)
              retriesLeft)) ∨
    (∃ (label : String) (events : List MutexEvent)
        (outcome : Except Reason Value) (stack : List Nat),
      (stack = state.callStack ∨ state.callStack = turn.pid :: stack) ∧
        state.calls turn.pid =
          some ⟨label, InMemoryMutex.running label, events⟩ ∧
        after =
          goOn { state with callStack := stack } turn.pid label events
            (InMemoryMutex.ended label (outcome.mapError .failed))) ∨
    ∃ stack,
      state.callStack = turn.pid :: stack ∧
        after = { state with callStack := stack } := by
  cases turn with
  | run pid label =>
      simp only [step?] at stepped
      split at stepped
      · cases stepped
      · rename_i fresh
        cases stepped
        refine .inl ⟨label, mutex.retryNumber, le_rfl, ?_, ?_⟩
        · intro call present
          rw [MutexTurn.pid, fresh] at present
          cases present
        · rw [Nat.sub_self]
          rfl
  | throws pid reason =>
      simp only [step?] at stepped
      split at stepped
      · rename_i top rest label resume events stacked present
        split at stepped
        · rename_i isTop
          have unlocks : resume = InMemoryMutex.ended label :=
            (shaped pid _ present).resume_fn
          subst unlocks
          cases stepped
          exact .inr (.inl ⟨label, events, .error reason, rest,
            .inr (isTop ▸ stacked), present, rfl⟩)
        · cases stepped
      · cases stepped
  | returns pid =>
      simp only [step?] at stepped
      split at stepped
      · rename_i top rest stacked
        split at stepped
        · rename_i isTop
          cases stepped
          exact .inr (.inr ⟨rest, isTop ▸ stacked, rfl⟩)
        · cases stepped
      · cases stepped
  | settles pid outcome =>
      simp only [step?] at stepped
      split at stepped
      · rename_i label resume events _ present
        have unlocks : resume = InMemoryMutex.ended label :=
          (shaped pid _ present).resume_fn
        subst unlocks
        cases stepped
        exact .inr (.inl
          ⟨label, events, outcome, state.callStack, .inl rfl, present, rfl⟩)
      · cases stepped
  | timer pid =>
      simp only [step?] at stepped
      split at stepped
      · rename_i label delay resume events _ present
        obtain ⟨retriesLeft, few, rfl, checks⟩ :=
          (shaped pid _ present).resume_setTimeout
        cases stepped
        refine .inl ⟨label, retriesLeft, few, ?_,
          congrArg (goOn state pid label _) checks⟩
        intro call found
        rw [MutexTurn.pid, present] at found
        cases found
        exact ⟨rfl, rfl⟩
      · cases stepped

/-- What the calls and the locked labels have to do with each other. -/
structure Consistent (mutex : InMemoryMutex) (state : MutexState Reason Value) :
    Prop where
  shaped : state.Shaped mutex
  exclusive :
    ∀ first second label,
      state.InProgress first label →
      state.InProgress second label →
      first = second
  locked_iff :
    ∀ label,
      label ∈ state.lockedResources ↔ ∃ pid, state.InProgress pid label

/-- A call is made for one label. -/
theorem InProgress.label_eq
    {pid : Nat}
    {label other : String}
    (runs : state.InProgress pid label)
    (alsoRuns : state.InProgress pid other) :
    label = other := by
  obtain ⟨call, present, rfl, _⟩ := runs
  obtain ⟨found, foundPresent, rfl, _⟩ := alsoRuns
  rw [present] at foundPresent
  cases foundPresent
  rfl

/-- One call has moved, so the others are in progress as before. -/
theorem inProgress_update
    {pid : Nat}
    {call : MutexCall Reason Value}
    (moved : after.calls = Function.update state.calls pid (some call))
    (other : Nat)
    (label : String) :
    after.InProgress other label ↔
      (other = pid ∧ call.label = label ∧ call.residual.awaitsFn = true) ∨
        (other ≠ pid ∧ state.InProgress other label) := by
  unfold InProgress
  by_cases same : other = pid
  · simp [moved, same]
  · simp [moved, same]

theorem shaped_update
    {pid : Nat}
    {call : MutexCall Reason Value}
    (moved : after.calls = Function.update state.calls pid (some call))
    (shaped : state.Shaped mutex)
    (callShaped : mutex.Shaped call.label call.residual call.events) :
    after.Shaped mutex := by
  intro other found present
  rw [moved] at present
  by_cases same : other = pid
  · rw [same, Function.update_self] at present
    cases present
    exact callShaped
  · rw [Function.update_of_ne same] at present
    exact shaped other found present

namespace Consistent

variable {pid : Nat}
variable {label : String}

theorem initial : Consistent mutex ({} : MutexState Reason Value) where
  shaped := by
    intro pid call present
    cases present
  exclusive := by
    rintro first second label ⟨call, present, _⟩
    cases present
  locked_iff := by
    intro label
    simp [InProgress]

/-- A call that was not in progress and is not now leaves the locks alone. -/
theorem quiet
    {call : MutexCall Reason Value}
    (consistent : state.Consistent mutex)
    (moved : after.calls = Function.update state.calls pid (some call))
    (kept : after.lockedResources = state.lockedResources)
    (callShaped : mutex.Shaped call.label call.residual call.events)
    (idle : call.residual.awaitsFn = false)
    (wasIdle : ∀ label, ¬ state.InProgress pid label) :
    after.Consistent mutex := by
  have same : ∀ other label,
      after.InProgress other label ↔ state.InProgress other label := by
    intro other label
    rw [inProgress_update moved, idle]
    by_cases isPid : other = pid
    · simp [isPid, wasIdle]
    · simp [isPid]
  constructor
  · exact shaped_update moved consistent.shaped callShaped
  · intro first second label firstRuns secondRuns
    exact consistent.exclusive first second label
      ((same first label).mp firstRuns) ((same second label).mp secondRuns)
  · intro label
    simp only [kept, same, consistent.locked_iff]

/-- A call that finds its label free is the only one on it from then on. -/
theorem starts
    {events : List MutexEvent}
    (consistent : state.Consistent mutex)
    (moved :
      after.calls =
        Function.update state.calls pid
          (some ⟨label, InMemoryMutex.running label, events⟩))
    (locks : after.lockedResources = insert label state.lockedResources)
    (free : label ∉ state.lockedResources)
    (wasIdle : ∀ label, ¬ state.InProgress pid label) :
    after.Consistent mutex := by
  have awaits :
      (InMemoryMutex.running label :
        MutexProgram Reason Value Value).awaitsFn = true := rfl
  have now : ∀ other found,
      after.InProgress other found ↔
        (other = pid ∧ label = found) ∨ state.InProgress other found := by
    intro other found
    rw [inProgress_update moved]
    by_cases isPid : other = pid
    · simp [isPid, wasIdle, awaits]
    · simp [isPid]
  have noneRuns : ∀ other, ¬ state.InProgress other label := by
    intro other runs
    exact free ((consistent.locked_iff label).mpr ⟨other, runs⟩)
  constructor
  · exact shaped_update moved consistent.shaped (.running events)
  · intro first second found firstRuns secondRuns
    rcases (now first found).mp firstRuns with ⟨rfl, rfl⟩ | firstRan
    · rcases (now second label).mp secondRuns with ⟨rfl, _⟩ | secondRan
      · rfl
      · exact absurd secondRan (noneRuns second)
    · rcases (now second found).mp secondRuns with ⟨rfl, rfl⟩ | secondRan
      · exact absurd firstRan (noneRuns first)
      · exact consistent.exclusive first second found firstRan secondRan
  · intro found
    simp only [locks, Finset.mem_insert, now, consistent.locked_iff]
    constructor
    · rintro (rfl | ⟨other, runs⟩)
      · exact ⟨pid, .inl ⟨rfl, rfl⟩⟩
      · exact ⟨other, .inr runs⟩
    · rintro ⟨other, ⟨_, rfl⟩ | runs⟩
      · exact .inl rfl
      · exact .inr ⟨other, runs⟩

/-- A call unlocks its own label only, and only when its function has ended. -/
theorem ends
    {events : List MutexEvent}
    {outcome : Except Reason Value}
    (consistent : state.Consistent mutex)
    (moved :
      after.calls =
        Function.update state.calls pid
          (some ⟨label, .settled (outcome.mapError .failed), events⟩))
    (unlocks : after.lockedResources = state.lockedResources.erase label)
    (ran : state.InProgress pid label) :
    after.Consistent mutex := by
  have now : ∀ other found,
      after.InProgress other found ↔
        other ≠ pid ∧ state.InProgress other found := by
    intro other found
    simp [inProgress_update moved, MutexProgram.awaitsFn]
  constructor
  · exact shaped_update moved consistent.shaped (.ended outcome events)
  · intro first second found firstRuns secondRuns
    exact consistent.exclusive first second found
      ((now first found).mp firstRuns).2 ((now second found).mp secondRuns).2
  · intro found
    simp only [unlocks, Finset.mem_erase, now, consistent.locked_iff]
    constructor
    · rintro ⟨different, other, runs⟩
      refine ⟨other, ?_, runs⟩
      rintro rfl
      exact different (runs.label_eq ran)
    · rintro ⟨other, different, runs⟩
      refine ⟨?_, other, runs⟩
      rintro rfl
      exact different (consistent.exclusive other pid found runs ran)

/-- A check keeps the locks and the calls consistent, however it turns out. -/
theorem check
    {retriesLeft : Nat}
    (consistent : state.Consistent mutex)
    (few : retriesLeft ≤ mutex.retryNumber)
    (wasIdle : ∀ label, ¬ state.InProgress pid label) :
    (state.goOn pid label
        (List.replicate (mutex.retryNumber - retriesLeft) (.checked true))
        (mutex.runImpl mutexActions label (MutexOp.perform .fn)
          retriesLeft)).Consistent mutex := by
  cases retriesLeft with
  | zero =>
      rw [goOn_runImpl_zero]
      exact consistent.quiet rfl rfl .gaveUp rfl wasIdle
  | succ retriesLeft =>
      by_cases locked : label ∈ state.lockedResources
      · rw [goOn_runImpl_of_locked mutex state pid label _ retriesLeft locked,
          ← List.replicate_succ',
          show mutex.retryNumber - (retriesLeft + 1) + 1 =
            mutex.retryNumber - retriesLeft by omega]
        exact consistent.quiet rfl rfl (.waiting few) rfl wasIdle
      · rw [goOn_runImpl_of_free mutex state pid label _ retriesLeft locked]
        exact consistent.starts rfl rfl locked wasIdle

/-- What one turn keeps. -/
theorem step
    {turn : MutexTurn Reason Value}
    (consistent : state.Consistent mutex)
    (stepped : state.step? mutex turn = some after) :
    after.Consistent mutex := by
  rcases step?_cases consistent.shaped stepped with
    ⟨label, retriesLeft, few, idle, rfl⟩ |
    ⟨label, events, outcome, stack, _, present, rfl⟩ | ⟨stack, _, rfl⟩
  · refine consistent.check few ?_
    rintro found ⟨call, present, _, awaits⟩
    rw [(idle call present).2] at awaits
    cases awaits
  · rw [goOn_ended]
    exact consistent.ends rfl rfl ⟨_, present, rfl, rfl⟩
  · exact ⟨consistent.shaped, consistent.exclusive, consistent.locked_iff⟩

/-- What a whole run keeps. -/
theorem of_run
    {turns : List (MutexTurn Reason Value)}
    (run :
      Run (fun before turn after => before.step? mutex turn = some after)
        {} turns state) :
    state.Consistent mutex :=
  run.invariant (Consistent mutex)
    (fun _ _ _ consistent stepped => consistent.step stepped) initial

end Consistent

/-- A call that gave up has found its label locked at every check. -/
theorem Shaped.of_retriesExceeded
    {pid : Nat}
    {call : MutexCall Reason Value}
    {message : String}
    (shaped : state.Shaped mutex)
    (present : state.calls pid = some call)
    (rejected : call.residual = .settled (.error (.retriesExceeded message))) :
    call.events = List.replicate mutex.retryNumber (.checked true) := by
  obtain ⟨label, residual, events⟩ := call
  have callShaped := shaped pid _ present
  simp only at rejected callShaped ⊢
  cases callShaped with
  | waiting checked => cases rejected
  | running events => cases rejected
  | ended outcome events =>
      cases outcome <;> cases rejected
  | gaveUp => rfl

/-- The part of a state that belongs to the calls for one label. -/
def restrict
    (state : MutexState Reason Value)
    (labelOf : Nat → String)
    (label : String) :
    MutexState Reason Value where
  lockedResources := state.lockedResources.filter (· = label)
  calls pid := if labelOf pid = label then state.calls pid else none
  callStack := state.callStack.filter fun pid => labelOf pid = label

/-- The calls are made for the labels that `labelOf` says. -/
def Labelled (state : MutexState Reason Value) (labelOf : Nat → String) : Prop :=
  ∀ pid call, state.calls pid = some call → call.label = labelOf pid

section Restrict

variable {labelOf : Nat → String}
variable {pid : Nat}
variable {label : String}
variable {program : MutexProgram Reason Value Value}

/-- The program locks and unlocks this label only. -/
structure Confined
    (label : String)
    (program : MutexProgram Reason Value Value) :
    Prop where
  own :
    ∀ locked,
      program.untilAwait (locked.filter (· = label)) =
        { program.untilAwait locked with
          lockedResources :=
            (program.untilAwait locked).lockedResources.filter (· = label) }
  others :
    ∀ other locked,
      other ≠ label →
      (program.untilAwait locked).lockedResources.filter (· = other) =
        locked.filter (· = other)

theorem confined_runImpl (retriesLeft : Nat) :
    Confined label
      (mutex.runImpl mutexActions label (MutexOp.perform .fn) retriesLeft :
        MutexProgram Reason Value Value) := by
  cases retriesLeft with
  | zero => exact ⟨fun _ => rfl, fun _ _ _ => rfl⟩
  | succ retriesLeft =>
      constructor
      · intro locked
        simp only [InMemoryMutex.untilAwait_runImpl, Finset.mem_filter, and_true]
        by_cases isLocked : label ∈ locked
        · simp [isLocked]
        · simp [isLocked, Finset.filter_insert]
      · intro other locked different
        simp only [InMemoryMutex.untilAwait_runImpl]
        by_cases isLocked : label ∈ locked
        · simp [isLocked]
        · simp [isLocked, Finset.filter_insert, different.symm]

theorem confined_ended (outcome : Except (MutexFailure Reason) Value) :
    Confined label
      (InMemoryMutex.ended label outcome : MutexProgram Reason Value Value) := by
  constructor
  · intro locked
    refine congrArg (fun left => MutexSegment.mk (.settled outcome) left []) ?_
    exact (Finset.filter_erase (· = label) label locked).symm
  · intro other locked different
    change (locked.erase label).filter (· = other) = locked.filter (· = other)
    ext resource
    simp only [Finset.mem_filter, Finset.mem_erase]
    constructor
    · rintro ⟨⟨_, member⟩, isOther⟩
      exact ⟨member, isOther⟩
    · rintro ⟨member, rfl⟩
      exact ⟨⟨different, member⟩, rfl⟩

/-- A call on the label goes on in its own part of the state. -/
theorem restrict_goOn
    (confined : Confined label program)
    (onLabel : labelOf pid = label)
    (events : List MutexEvent) :
    (state.goOn pid label events program).restrict labelOf label =
      (state.restrict labelOf label).goOn pid label events program := by
  have own := confined.own state.lockedResources
  simp only [restrict, goOn, own, MutexState.mk.injEq, true_and]
  constructor
  · funext other
    by_cases same : other = pid
    · simp [same, onLabel]
    · simp [same]
  · cases (program.untilAwait state.lockedResources).residual.awaitsFn with
    | true => simp [onLabel]
    | false => rfl

/-- A call on another label is not seen. -/
theorem restrict_goOn_of_ne
    {other : String}
    (confined : Confined other program)
    (onOther : labelOf pid = other)
    (different : label ≠ other)
    (events : List MutexEvent) :
    (state.goOn pid other events program).restrict labelOf label =
      state.restrict labelOf label := by
  have unseen : labelOf pid ≠ label := fun same => different (same ▸ onOther)
  simp only [restrict, goOn,
    confined.others label state.lockedResources different,
    MutexState.mk.injEq, true_and]
  constructor
  · funext someone
    by_cases same : someone = pid
    · simp [same, unseen]
    · simp [same]
  · cases (program.untilAwait state.lockedResources).residual.awaitsFn with
    | true => simp [unseen]
    | false => rfl

theorem label_eq_of_goOn
    {events : List MutexEvent}
    (labelled : (state.goOn pid label events program).Labelled labelOf) :
    label = labelOf pid :=
  labelled pid _ (Function.update_self ..)

/-- A turn of a call on another label is not seen. -/
theorem restrict_step?_of_ne
    {turn : MutexTurn Reason Value}
    (shaped : state.Shaped mutex)
    (labelled : after.Labelled labelOf)
    (different : labelOf turn.pid ≠ label)
    (stepped : state.step? mutex turn = some after) :
    after.restrict labelOf label = state.restrict labelOf label := by
  rcases step?_cases shaped stepped with
    ⟨other, retriesLeft, few, idle, rfl⟩ |
    ⟨other, events, outcome, stack, stacked, present, rfl⟩ |
    ⟨stack, stacked, rfl⟩
  · have onOther := label_eq_of_goOn labelled
    exact restrict_goOn_of_ne (confined_runImpl retriesLeft) onOther.symm
      (fun same => different (onOther.symm.trans same.symm)) _
  · have onOther := label_eq_of_goOn labelled
    rw [restrict_goOn_of_ne (confined_ended _) onOther.symm
      (fun same => different (onOther.symm.trans same.symm))]
    rcases stacked with rfl | stacked
    · rfl
    · simp [restrict, stacked, different]
  · simp [restrict, stacked, different]

theorem restrict_calls (onLabel : labelOf pid = label) :
    (state.restrict labelOf label).calls pid = state.calls pid :=
  if_pos onLabel

theorem restrict_callStack_cons
    {rest : List Nat}
    (stacked : state.callStack = pid :: rest)
    (onLabel : labelOf pid = label) :
    (state.restrict labelOf label).callStack =
      pid :: rest.filter fun pid => labelOf pid = label := by
  simp [restrict, stacked, onLabel]

theorem restrict_callStack_nil (stacked : state.callStack = []) :
    (state.restrict labelOf label).callStack = [] := by
  simp [restrict, stacked]

/-- A turn of a call on the label is a turn of the label's own part. -/
theorem step?_restrict
    {turn : MutexTurn Reason Value}
    (shaped : state.Shaped mutex)
    (labelled : after.Labelled labelOf)
    (onLabel : labelOf turn.pid = label)
    (stepped : state.step? mutex turn = some after) :
    (state.restrict labelOf label).step? mutex turn =
      some (after.restrict labelOf label) := by
  cases turn with
  | run pid asked =>
      simp only [step?] at stepped
      split at stepped
      · cases stepped
      · rename_i fresh
        cases stepped
        have asks : asked = label := (label_eq_of_goOn labelled).trans onLabel
        subst asks
        have calls := (@restrict_calls _ _ state _ pid _ onLabel).trans fresh
        simp only [step?, calls]
        exact congrArg some
          (restrict_goOn (confined_runImpl mutex.retryNumber) onLabel []).symm
  | throws pid reason =>
      simp only [step?] at stepped
      split at stepped
      · rename_i top rest other resume events stacked present
        split at stepped
        · rename_i isTop
          subst isTop
          have unlocks : resume = InMemoryMutex.ended other :=
            (shaped top _ present).resume_fn
          subst unlocks
          cases stepped
          have same : other = label := (label_eq_of_goOn labelled).trans onLabel
          subst same
          have calls := (@restrict_calls _ _ state _ top _ onLabel).trans present
          simp only [step?, calls,
            restrict_callStack_cons stacked onLabel, if_true]
          have goes :=
            @restrict_goOn _ _ { state with callStack := rest } labelOf top other _
              (confined_ended (.error (.failed reason))) onLabel events
          exact congrArg some goes.symm
        · cases stepped
      · cases stepped
  | returns pid =>
      simp only [step?] at stepped
      split at stepped
      · rename_i top rest stacked
        split at stepped
        · rename_i isTop
          subst isTop
          cases stepped
          simp only [step?, restrict_callStack_cons stacked onLabel, if_true]
          rfl
        · cases stepped
      · cases stepped
  | settles pid outcome =>
      simp only [step?] at stepped
      split at stepped
      · rename_i other resume events stacked present
        have unlocks : resume = InMemoryMutex.ended other :=
          (shaped pid _ present).resume_fn
        subst unlocks
        cases stepped
        have same : other = label := (label_eq_of_goOn labelled).trans onLabel
        subst same
        have calls := (@restrict_calls _ _ state _ pid _ onLabel).trans present
        simp only [step?, calls, restrict_callStack_nil stacked]
        exact congrArg some
          (restrict_goOn (confined_ended _) onLabel events).symm
      · cases stepped
  | timer pid =>
      simp only [step?] at stepped
      split at stepped
      · rename_i other delay resume events stacked present
        obtain ⟨retriesLeft, few, _, checks⟩ :=
          (shaped pid _ present).resume_setTimeout
        have same : other = label := by
          cases stepped
          exact (label_eq_of_goOn labelled).trans onLabel
        subst same
        cases stepped
        have calls := (@restrict_calls _ _ state _ pid _ onLabel).trans present
        simp only [step?, calls, restrict_callStack_nil stacked]
        refine congrArg some ?_
        rw [checks]
        exact (restrict_goOn (confined_runImpl retriesLeft) onLabel events).symm
      · cases stepped

/-- A call keeps its label. -/
theorem label_kept
    {turn : MutexTurn Reason Value}
    {call : MutexCall Reason Value}
    (shaped : state.Shaped mutex)
    (stepped : state.step? mutex turn = some after)
    (present : state.calls pid = some call) :
    ∃ later, after.calls pid = some later ∧ later.label = call.label := by
  by_cases same : pid = turn.pid
  · subst same
    rcases step?_cases shaped stepped with
      ⟨label, retriesLeft, few, idle, rfl⟩ |
      ⟨label, events, outcome, stack, _, found, rfl⟩ | ⟨stack, _, rfl⟩
    · exact ⟨_, Function.update_self .., (idle call present).1.symm⟩
    · rw [present] at found
      cases found
      exact ⟨_, Function.update_self .., rfl⟩
    · exact ⟨call, present, rfl⟩
  · refine ⟨call, ?_, rfl⟩
    rcases step?_cases shaped stepped with
      ⟨label, retriesLeft, few, idle, rfl⟩ |
      ⟨label, events, outcome, stack, _, found, rfl⟩ | ⟨stack, _, rfl⟩
    · exact (Function.update_of_ne same ..).trans present
    · exact (Function.update_of_ne same ..).trans present
    · exact present

/-- A run without the calls on other labels is a run as well. -/
theorem run_restrict
    {turns : List (MutexTurn Reason Value)}
    (run :
      Run (fun before turn after => before.step? mutex turn = some after)
        {} turns state)
    (labelled : state.Labelled labelOf) :
    Run (fun before turn after => before.step? mutex turn = some after)
      {} (turns.filter fun turn => labelOf turn.pid = label)
      (state.restrict labelOf label) := by
  induction run with
  | nil =>
      have empty :
          ({} : MutexState Reason Value).restrict labelOf label = {} := by
        simp [restrict]
      rw [empty]
      exact .nil
  | @snoc before state turns turn earlier last inductionHypothesis =>
      have shaped := (Consistent.of_run earlier).shaped
      have wasLabelled : before.Labelled labelOf := by
        intro pid call present
        obtain ⟨later, laterPresent, same⟩ := label_kept shaped last present
        exact same.symm.trans (labelled pid later laterPresent)
      have restricted := inductionHypothesis wasLabelled
      rw [List.filter_append]
      by_cases onLabel : labelOf turn.pid = label
      · simpa [onLabel] using
          restricted.snoc (step?_restrict shaped labelled onLabel last)
      · rw [restrict_step?_of_ne shaped labelled onLabel last]
        simpa [onLabel] using restricted

end Restrict

/--
In every run at most one function is in progress on a label, which is locked
just then; the calls on other labels make no difference; and a call that gives
up has found its label locked at each check, without invoking its function.
-/
theorem mutex_correct
    {turns : List (MutexTurn Reason Value)}
    (run :
      Run (fun before turn after => before.step? mutex turn = some after)
        {} turns state) :
    (∀ first second label,
      state.InProgress first label →
      state.InProgress second label →
      first = second) ∧
    (∀ label,
      label ∈ state.lockedResources ↔ ∃ pid, state.InProgress pid label) ∧
    (∀ labelOf label,
      state.Labelled labelOf →
      Run (fun before turn after => before.step? mutex turn = some after)
        {} (turns.filter fun turn => labelOf turn.pid = label)
        (state.restrict labelOf label)) ∧
    (∀ pid call message,
      state.calls pid = some call →
      call.residual = .settled (.error (.retriesExceeded message)) →
      call.events = List.replicate mutex.retryNumber (.checked true)) := by
  have consistent := Consistent.of_run run
  refine ⟨consistent.exclusive, consistent.locked_iff, ?_, ?_⟩
  · intro labelOf label labelled
    exact run_restrict run labelled
  · intro pid call message present rejected
    exact consistent.shaped.of_retriesExceeded present rejected

theorem mutex_correct_givingUp :
    ∃ state : MutexState Unit Unit,
      Run (fun before turn after => before.step? ⟨100, 1⟩ turn = some after) {}
          [.run 0 "task", .returns 0, .run 1 "task", .timer 1] state ∧
        "task" ∈ state.lockedResources ∧
        (state.calls 1).map MutexCall.events = some [.checked true] := by
  have executed :
      [.run 0 "task", .returns 0, .run 1 "task", .timer 1].foldlM
        (step? ⟨100, 1⟩) ({} : MutexState Unit Unit) = some _ := rfl
  have run := Run.of_foldlM executed
  refine ⟨_, run, ?_, ?_⟩
  · exact ((mutex_correct run).2.1 "task").mpr ⟨0, _, rfl, rfl, rfl⟩
  · exact congrArg some ((mutex_correct run).2.2.2 1 _ _ rfl rfl)

end MutexState

end

end Prescott
