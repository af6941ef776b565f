import Mathlib.Logic.Basic

namespace Prescott

/-!
# Asynchronous programs

A program is a tree of awaited operations: it has settled, or it awaits one
operation and goes on with the answer.  What an operation does to the shared
state is given by a host.  The module knows neither the operations nor the
state; `Settles` is the meaning of a program that runs alone.
-/

/-- The operations a program can await and the types they resolve with. -/
structure Signature where
  Op : Type
  Result : Op → Type

/-- An asynchronous program that resolves with an `α` or rejects with an `ε`. -/
inductive Async (S : Signature) (ε α : Type) where
  | settled (outcome : Except ε α)
  | await
      (op : S.Op)
      (resume : Except ε (S.Result op) → Async S ε α)

namespace Async

variable {S : Signature}
variable {ε α β : Type}

/-- Go on with the value a program resolves with. -/
protected def bind : Async S ε α → (α → Async S ε β) → Async S ε β
  | .settled (.ok value), next => next value
  | .settled (.error reason), _ => .settled (.error reason)
  | .await op resume, next =>
      .await op fun answer => (resume answer).bind next

/-- Go on with the reason a program rejects with. -/
protected def tryCatch :
    Async S ε α → (ε → Async S ε α) → Async S ε α
  | .settled (.ok value), _ => .settled (.ok value)
  | .settled (.error reason), handler => handler reason
  | .await op resume, handler =>
      .await op fun answer => (resume answer).tryCatch handler

instance : Monad (Async S ε) where
  pure value := .settled (.ok value)
  bind := Async.bind

instance : MonadExceptOf ε (Async S ε) where
  throw reason := .settled (.error reason)
  tryCatch := Async.tryCatch

private theorem bind_settled
    (program : Async S ε α) :
    (program.bind fun value => .settled (.ok value)) = program := by
  induction program with
  | settled outcome =>
      cases outcome <;> rfl
  | await op resume inductionHypothesis =>
      simp only [Async.bind, inductionHypothesis]

private theorem bind_bind
    {γ : Type}
    (program : Async S ε α)
    (next : α → Async S ε β)
    (last : β → Async S ε γ) :
    (program.bind next).bind last =
      program.bind fun value => (next value).bind last := by
  induction program with
  | settled outcome =>
      cases outcome <;> rfl
  | await op resume inductionHypothesis =>
      simp only [Async.bind, inductionHypothesis]

instance : LawfulMonad (Async S ε) :=
  LawfulMonad.mk' _ bind_settled (fun _ _ => rfl) bind_bind

/-- Await one operation. -/
def perform (op : S.Op) : Async S ε (S.Result op) :=
  .await op .settled

/-- Resolve with the outcome of a program instead of rejecting. -/
def attempt (program : Async S ε α) : Async S ε (Except ε α) :=
  match program with
  | .settled outcome => .settled (.ok outcome)
  | .await op resume => .await op fun answer => (resume answer).attempt

/-- `try { ... } finally { ... }`: clean up, then settle like the body. -/
def finallyDo
    (body : Async S ε α)
    (cleanUp : Async S ε Unit) :
    Async S ε α := do
  let outcome ← body.attempt
  cleanUp
  .settled outcome

/-- Whether a program resolved; a program that still awaits has not. -/
def resolved : Async S ε α → Option α
  | .settled (.ok value) => some value
  | _ => none

/-- Whether a program has settled. -/
def isSettled : Async S ε α → Bool
  | .settled _ => true
  | .await _ _ => false

end Async

/-- The operations of two signatures. -/
abbrev Signature.sum (S T : Signature) : Signature where
  Op := S.Op ⊕ T.Op
  Result := Sum.elim S.Result T.Result

/-- A program as one that could also await the operations of `T`. -/
def Async.lift
    {S T : Signature}
    {ε α : Type} :
    Async S ε α → Async (S.sum T) ε α
  | .settled outcome => .settled outcome
  | .await op resume => .await (.inl op) fun answer => (resume answer).lift

/--
A host answers operations: on an input that stands for everything the code
cannot see, an operation is answered and the state changes, or the input is
not possible there.
-/
abbrev Host (S : Signature) (ε State Input : Type) :=
  (op : S.Op) → Input → State → Option (Except ε (S.Result op) × State)

/-- Two hosts that share a state. -/
def Host.sum
    {S T : Signature}
    {ε State Input Other : Type}
    (host : Host S ε State Input)
    (other : Host T ε State Other) :
    Host (S.sum T) ε State (Input ⊕ Other)
  | .inl op, .inl input, state => host op input state
  | .inr op, .inr input, state => other op input state
  | _, _, _ => none

/--
The host on which some operations may also fail: on an input that carries a
reason, such an operation rejects with it and changes nothing.
-/
def Host.failing
    {S : Signature}
    {ε State Input : Type}
    (host : Host S ε State Input)
    (mayFail : S.Op → Bool) :
    Host S ε State (Input ⊕ ε)
  | op, .inl input, state => host op input state
  | op, .inr reason, state =>
      if mayFail op then some (.error reason, state) else none

/-- An operation is answered by the host, or it fails without effect. -/
theorem Host.of_failing
    {S : Signature}
    {ε State Input : Type}
    {host : Host S ε State Input}
    {mayFail : S.Op → Bool}
    {op : S.Op}
    {input : Input ⊕ ε}
    {before after : State}
    {answer : Except ε (S.Result op)}
    (answered :
      host.failing mayFail op input before = some (answer, after)) :
    (∃ input, host op input before = some (answer, after)) ∨
      (mayFail op = true ∧
        (∃ reason, answer = .error reason) ∧ after = before) := by
  cases input with
  | inl input =>
      exact .inl ⟨input, answered⟩
  | inr reason =>
      simp only [failing] at answered
      split at answered
      · rename_i fails
        cases answered
        exact .inr ⟨fails, ⟨reason, rfl⟩, rfl⟩
      · cases answered

/-- The host on which events happen before an operation takes effect. -/
def Host.disturbed
    {S : Signature}
    {ε State Input Event : Type}
    (host : Host S ε State Input)
    (happen : State → Event → State) :
    Host S ε State (List Event × Input)
  | op, (events, input), state => host op input (events.foldl happen state)

section Settles

variable {S : Signature}
variable {ε State Input α β : Type}

/-- A program runs alone from one state to another and settles there. -/
inductive Settles (host : Host S ε State Input) :
    Async S ε α → State → Except ε α → State → Prop where
  | settled (outcome : Except ε α) (state : State) :
      Settles host (.settled outcome) state outcome state
  | await
      {op : S.Op}
      {resume : Except ε (S.Result op) → Async S ε α}
      {input : Input}
      {answer : Except ε (S.Result op)}
      {before middle after : State}
      {outcome : Except ε α}
      (answered : host op input before = some (answer, middle))
      (rest : Settles host (resume answer) middle outcome after) :
      Settles host (.await op resume) before outcome after

namespace Settles

variable {host : Host S ε State Input}
variable {before after : State}

theorem settled_iff
    {outcome result : Except ε α} :
    Settles host (.settled outcome) before result after ↔
      result = outcome ∧ after = before := by
  constructor
  · intro settles
    cases settles
    exact ⟨rfl, rfl⟩
  · rintro ⟨rfl, rfl⟩
    exact .settled _ _

theorem pure_iff
    {value : α}
    {result : Except ε α} :
    Settles host (pure value) before result after ↔
      result = .ok value ∧ after = before :=
  settled_iff

theorem throw_iff
    {reason : ε}
    {result : Except ε α} :
    Settles host (throw reason) before result after ↔
      result = .error reason ∧ after = before :=
  settled_iff

theorem await_iff
    {op : S.Op}
    {resume : Except ε (S.Result op) → Async S ε α}
    {result : Except ε α} :
    Settles host (.await op resume) before result after ↔
      ∃ input answer middle,
        host op input before = some (answer, middle) ∧
          Settles host (resume answer) middle result after := by
  constructor
  · intro settles
    cases settles with
    | await answered rest =>
        exact ⟨_, _, _, answered, rest⟩
  · rintro ⟨input, answer, middle, answered, rest⟩
    exact .await answered rest

theorem perform_iff
    {op : S.Op}
    {result : Except ε (S.Result op)} :
    Settles host (Async.perform op) before result after ↔
      ∃ input, host op input before = some (result, after) := by
  constructor
  · intro settles
    obtain ⟨input, answer, middle, answered, rest⟩ :=
      await_iff.mp settles
    obtain ⟨rfl, rfl⟩ := settled_iff.mp rest
    exact ⟨input, answered⟩
  · rintro ⟨input, answered⟩
    exact await_iff.mpr ⟨input, _, _, answered, .settled _ _⟩

/-- The run of a sequential composition splits at the first settlement. -/
theorem bind_iff
    {first : Async S ε α}
    {next : α → Async S ε β}
    {result : Except ε β} :
    Settles host (first >>= next) before result after ↔
      (∃ value middle,
        Settles host first before (.ok value) middle ∧
          Settles host (next value) middle result after) ∨
      (∃ reason,
        Settles host first before (.error reason) after ∧
          result = .error reason) := by
  induction first generalizing before with
  | settled outcome =>
      cases outcome with
      | ok value =>
          change Settles host (next value) before result after ↔ _
          simp [settled_iff, and_assoc]
      | error reason =>
          change Settles host (.settled (.error reason)) before result after ↔ _
          simp [settled_iff, and_assoc, and_comm]
  | await op resume inductionHypothesis =>
      change Settles host (.await op fun answer => resume answer >>= next)
        before result after ↔ _
      simp only [await_iff, inductionHypothesis]
      constructor
      · rintro ⟨input, answer, between, answered,
          ⟨value, middle, first, later⟩ | ⟨reason, first, shape⟩⟩
        · exact .inl ⟨value, middle,
            ⟨input, answer, between, answered, first⟩, later⟩
        · exact .inr ⟨reason,
            ⟨input, answer, between, answered, first⟩, shape⟩
      · rintro (⟨value, middle, ⟨input, answer, between, answered, first⟩,
            later⟩ |
          ⟨reason, ⟨input, answer, between, answered, first⟩, shape⟩)
        · exact ⟨input, answer, between, answered,
            .inl ⟨value, middle, first, later⟩⟩
        · exact ⟨input, answer, between, answered,
            .inr ⟨reason, first, shape⟩⟩

/-- A composition that resolves has resolved in between. -/
theorem resolved_bind
    {first : Async S ε α}
    {next : α → Async S ε β}
    {result : β}
    (settles : Settles host (first >>= next) before (.ok result) after) :
    ∃ value middle,
      Settles host first before (.ok value) middle ∧
        Settles host (next value) middle (.ok result) after := by
  rcases bind_iff.mp settles with resolved | ⟨_, _, rejected⟩
  · exact resolved
  · cases rejected

/-- A program with a handler settles like one of the two. -/
theorem tryCatch_iff
    {program : Async S ε α}
    {handler : ε → Async S ε α}
    {result : Except ε α} :
    Settles host (program.tryCatch handler) before result after ↔
      (∃ value, Settles host program before (.ok value) after ∧ result = .ok value) ∨
        ∃ reason middle,
          Settles host program before (.error reason) middle ∧
            Settles host (handler reason) middle result after := by
  induction program generalizing before with
  | settled outcome =>
      cases outcome with
      | ok value =>
          simp [Async.tryCatch, settled_iff, and_assoc, and_comm]
      | error reason =>
          simp [Async.tryCatch, settled_iff, and_assoc]
  | await op resume inductionHypothesis =>
      simp only [Async.tryCatch, await_iff, inductionHypothesis]
      constructor
      · rintro ⟨input, answer, between, answered,
          ⟨value, first, shape⟩ | ⟨reason, middle, first, later⟩⟩
        · exact .inl ⟨value, ⟨input, answer, between, answered, first⟩, shape⟩
        · exact .inr ⟨reason, middle,
            ⟨input, answer, between, answered, first⟩, later⟩
      · rintro (⟨value, ⟨input, answer, between, answered, first⟩, shape⟩ |
          ⟨reason, middle, ⟨input, answer, between, answered, first⟩, later⟩)
        · exact ⟨input, answer, between, answered, .inl ⟨value, first, shape⟩⟩
        · exact ⟨input, answer, between, answered,
            .inr ⟨reason, middle, first, later⟩⟩

/-- Mapping the resolved value maps the outcome. -/
theorem bind_pure_iff
    {program : Async S ε α}
    {wrap : α → β}
    {result : Except ε β} :
    Settles host (program >>= fun value => pure (wrap value))
        before result after ↔
      ∃ outcome,
        Settles host program before outcome after ∧
          result = outcome.map wrap := by
  rw [bind_iff]
  constructor
  · rintro (⟨value, middle, first, last⟩ | ⟨reason, first, rejected⟩)
    · obtain ⟨resolved, rfl⟩ := pure_iff.mp last
      exact ⟨.ok value, first, resolved⟩
    · exact ⟨.error reason, first, rejected⟩
  · rintro ⟨outcome, first, rfl⟩
    cases outcome with
    | ok value =>
        exact .inl ⟨value, after, first, pure_iff.mpr ⟨rfl, rfl⟩⟩
    | error reason =>
        exact .inr ⟨reason, first, rfl⟩

/-- A composition goes on from where its first program certainly resolves. -/
theorem bind_iff_of_certain
    {first : Async S ε α}
    {next : α → Async S ε β}
    {value : α}
    {middle : State}
    {result : Except ε β}
    (certain :
      ∀ outcome reached,
        Settles host first before outcome reached ↔
          outcome = .ok value ∧ reached = middle) :
    Settles host (first >>= next) before result after ↔
      Settles host (next value) middle result after := by
  rw [bind_iff]
  constructor
  · rintro (⟨_, _, settles, rest⟩ | ⟨_, failed, _⟩)
    · obtain ⟨shape, rfl⟩ := (certain _ _).mp settles
      cases shape
      exact rest
    · cases ((certain _ _).mp failed).1
  · intro rest
    exact .inl ⟨value, middle, (certain _ _).mpr ⟨rfl, rfl⟩, rest⟩

/--
A loop whose body is certain of what it does: as long as the rest of the list
is ready, so that the body resolves in the next state and leaves the rest
ready, the loop folds the next states.
-/
theorem forM_iff
    {Item : Type}
    {items : List Item}
    {body : Item → Async S ε Unit}
    {next : State → Item → State}
    {result : Except ε Unit}
    (ready : List Item → State → Prop)
    (certain :
      ∀ item rest state,
        ready (item :: rest) state →
        ready rest (next state item) ∧
          ∀ outcome reached,
            Settles host (body item) state outcome reached ↔
              outcome = .ok () ∧ reached = next state item)
    (initially : ready items before) :
    Settles host (forM items body) before result after ↔
      result = .ok () ∧ after = items.foldl next before := by
  induction items generalizing before with
  | nil =>
      exact pure_iff
  | cons item rest inductionHypothesis =>
      obtain ⟨restReady, settles⟩ := certain item rest before initially
      rw [List.forM_cons, bind_iff_of_certain settles]
      exact inductionHypothesis restReady

end Settles

/--
Running alone from one state, a program comes to await an operation in
another one.
-/
inductive Awaits (host : Host S ε State Input) :
    Async S ε α → State → S.Op → State → Prop where
  | here
      {op : S.Op}
      {resume : Except ε (S.Result op) → Async S ε α}
      {state : State} :
      Awaits host (.await op resume) state op state
  | later
      {op awaited : S.Op}
      {resume : Except ε (S.Result op) → Async S ε α}
      {input : Input}
      {answer : Except ε (S.Result op)}
      {before middle reached : State}
      (answered : host op input before = some (answer, middle))
      (rest : Awaits host (resume answer) middle awaited reached) :
      Awaits host (.await op resume) before awaited reached

namespace Awaits

variable {host : Host S ε State Input}
variable {before reached : State}
variable {awaited : S.Op}

theorem not_settled
    {outcome : Except ε α} :
    ¬ Awaits host (.settled outcome) before awaited reached := by
  intro awaits
  cases awaits

/-- After its first operation a composition goes on with the answer. -/
theorem of_perform_bind
    {op : S.Op}
    {next : S.Result op → Async S ε α}
    (awaits : Awaits host (Async.perform op >>= next) before awaited reached) :
    (awaited = op ∧ reached = before) ∨
      ∃ input value middle,
        host op input before = some (.ok value, middle) ∧
          Awaits host (next value) middle awaited reached := by
  cases awaits with
  | here =>
      exact .inl ⟨rfl, rfl⟩
  | @later _ _ _ input answer _ middle _ answered rest =>
      cases answer with
      | ok value =>
          exact .inr ⟨input, value, middle, answered, rest⟩
      | error reason =>
          exact (not_settled rest).elim

/-- What the rest awaits the composition awaits. -/
theorem bind
    {first : Async S ε β}
    {next : β → Async S ε α}
    {middle : State}
    {value : β}
    (settles : Settles host first before (.ok value) middle)
    (awaits : Awaits host (next value) middle awaited reached) :
    Awaits host (first >>= next) before awaited reached := by
  generalize resolved : Except.ok value = outcome at settles
  induction settles with
  | settled outcome state =>
      cases resolved
      exact awaits
  | await answered _ inductionHypothesis =>
      exact .later answered (inductionHypothesis awaits resolved)

/-- A composition awaits in its first part or, when that resolves, in the rest. -/
theorem of_bind
    {first : Async S ε β}
    {next : β → Async S ε α}
    (awaits : Awaits host (first >>= next) before awaited reached) :
    Awaits host first before awaited reached ∨
      ∃ value middle,
        Settles host first before (.ok value) middle ∧
          Awaits host (next value) middle awaited reached := by
  induction first generalizing before with
  | settled outcome =>
      cases outcome with
      | ok value => exact .inr ⟨value, before, .settled _ _, awaits⟩
      | error reason => exact (not_settled awaits).elim
  | await op resume inductionHypothesis =>
      cases awaits with
      | here => exact .inl .here
      | later answered rest =>
          rcases inductionHypothesis _ rest with awaits | ⟨value, middle, settles, awaits⟩
          · exact .inl (.later answered awaits)
          · exact .inr ⟨value, middle, .await answered settles, awaits⟩

end Awaits

/--
Running alone from one state, a program rejects with a reason in another one;
the last operation that it has awaited is the one at which it does.
-/
inductive RejectsAt (host : Host S ε State Input) :
    Async S ε α → State → S.Op → ε → State → Prop
  | here
      {op : S.Op}
      {resume : Except ε (S.Result op) → Async S ε α}
      {input : Input}
      {answer : Except ε (S.Result op)}
      {before after : State}
      {reason : ε}
      (answered : host op input before = some (answer, after))
      (rejected : resume answer = .settled (.error reason)) :
      RejectsAt host (.await op resume) before op reason after
  | later
      {op last : S.Op}
      {resume : Except ε (S.Result op) → Async S ε α}
      {input : Input}
      {answer : Except ε (S.Result op)}
      {before middle after : State}
      {reason : ε}
      (answered : host op input before = some (answer, middle))
      (rest : RejectsAt host (resume answer) middle last reason after) :
      RejectsAt host (.await op resume) before last reason after

namespace RejectsAt

variable {host : Host S ε State Input}
variable {before after : State}
variable {last : S.Op}
variable {reason : ε}

theorem not_settled
    {outcome : Except ε α} :
    ¬ RejectsAt host (.settled outcome) before last reason after := by
  intro rejects
  cases rejects

theorem settles
    {program : Async S ε α}
    (rejects : RejectsAt host program before last reason after) :
    Settles host program before (.error reason) after := by
  induction rejects with
  | here answered rejected =>
      exact .await answered (rejected ▸ .settled _ _)
  | later answered _ inductionHypothesis =>
      exact .await answered inductionHypothesis

theorem of_perform
    {op : S.Op}
    (rejects : RejectsAt host (Async.perform op) before last reason after) :
    last = op ∧ ∃ input, host op input before = some (.error reason, after) := by
  cases rejects with
  | here answered rejected =>
      cases rejected
      exact ⟨rfl, _, answered⟩
  | later answered rest => exact (not_settled rest).elim

/-- A composition rejects at its first operation or later. -/
theorem of_perform_bind
    {op : S.Op}
    {next : S.Result op → Async S ε α}
    (rejects : RejectsAt host (Async.perform op >>= next) before last reason after) :
    (last = op ∧
        ((∃ input, host op input before = some (.error reason, after)) ∨
          ∃ input value,
            host op input before = some (.ok value, after) ∧
              next value = .settled (.error reason))) ∨
      ∃ input value middle,
        host op input before = some (.ok value, middle) ∧
          RejectsAt host (next value) middle last reason after := by
  cases rejects with
  | @here _ _ input answer _ _ _ answered rejected =>
      cases answer with
      | ok value => exact .inl ⟨rfl, .inr ⟨input, value, answered, rejected⟩⟩
      | error cause =>
          cases rejected
          exact .inl ⟨rfl, .inl ⟨input, answered⟩⟩
  | @later _ _ _ input answer _ middle _ _ answered rest =>
      cases answer with
      | ok value => exact .inr ⟨input, value, middle, answered, rest⟩
      | error cause => exact (not_settled rest).elim

/-- An attempted program does not reject. -/
theorem not_attempt
    {program : Async S ε α} :
    ¬ RejectsAt host program.attempt before last reason after := by
  intro rejects
  induction program generalizing before with
  | settled outcome => exact not_settled rejects
  | await op resume inductionHypothesis =>
      cases rejects with
      | @here _ _ _ answer _ _ _ _ rejected =>
          change (resume answer).attempt = .settled (.error reason) at rejected
          cases resumed : resume answer <;> rw [resumed] at rejected <;> cases rejected
      | later _ rest => exact inductionHypothesis _ rest

/-- A composition rejects in its first part or in the rest, which goes on. -/
theorem of_bind
    {first : Async S ε β}
    {next : β → Async S ε α}
    (goesOn : ∀ value, next value ≠ .settled (.error reason))
    (rejects : RejectsAt host (first >>= next) before last reason after) :
    RejectsAt host first before last reason after ∨
      ∃ value middle,
        Settles host first before (.ok value) middle ∧
          RejectsAt host (next value) middle last reason after := by
  induction first generalizing before with
  | settled outcome =>
      cases outcome with
      | ok value => exact .inr ⟨value, before, .settled _ _, rejects⟩
      | error cause => exact (not_settled rejects).elim
  | await op resume inductionHypothesis =>
      cases rejects with
      | @here _ _ input answer _ _ _ answered rejected =>
          change (resume answer).bind next = .settled (.error reason) at rejected
          cases resumed : resume answer with
          | await later resumeLater =>
              rw [resumed] at rejected
              cases rejected
          | settled outcome =>
              rw [resumed] at rejected
              cases outcome with
              | ok value => exact absurd rejected (goesOn value)
              | error cause =>
                  cases rejected
                  exact .inl (.here answered resumed)
      | @later _ _ _ input answer _ middle _ _ answered rest =>
          rcases inductionHypothesis answer rest with
              rejects | ⟨value, final, settles, rejects⟩
          · exact .inl (.later answered rejects)
          · exact .inr ⟨value, final, .await answered settles, rejects⟩

end RejectsAt

/-- Every operation that a program may come to await meets a condition. -/
def Async.AwaitsOnly (allowed : S.Op → Prop) : Async S ε α → Prop
  | .settled _ => True
  | .await op resume =>
      allowed op ∧ ∀ answer, (resume answer).AwaitsOnly allowed

namespace Async.AwaitsOnly

variable {allowed : S.Op → Prop}

theorem mono
    {weaker : S.Op → Prop}
    {program : Async S ε α}
    (only : program.AwaitsOnly allowed)
    (weakens : ∀ op, allowed op → weaker op) :
    program.AwaitsOnly weaker := by
  induction program with
  | settled outcome => trivial
  | await op resume inductionHypothesis =>
      exact ⟨weakens op only.1, fun answer => inductionHypothesis answer (only.2 answer)⟩

theorem perform
    {op : S.Op}
    (isAllowed : allowed op) :
    (Async.perform op : Async S ε (S.Result op)).AwaitsOnly allowed :=
  ⟨isAllowed, fun _ => trivial⟩

theorem bind
    {first : Async S ε α}
    {next : α → Async S ε β}
    (firstOnly : first.AwaitsOnly allowed)
    (nextOnly : ∀ value, (next value).AwaitsOnly allowed) :
    (first >>= next).AwaitsOnly allowed := by
  induction first with
  | settled outcome =>
      cases outcome with
      | ok value => exact nextOnly value
      | error reason => trivial
  | await op resume inductionHypothesis =>
      exact ⟨firstOnly.1, fun answer =>
        inductionHypothesis answer (firstOnly.2 answer)⟩

theorem attempt
    {program : Async S ε α}
    (only : program.AwaitsOnly allowed) :
    program.attempt.AwaitsOnly allowed := by
  induction program with
  | settled outcome => trivial
  | await op resume inductionHypothesis =>
      exact ⟨only.1, fun answer => inductionHypothesis answer (only.2 answer)⟩

theorem tryCatch
    {program : Async S ε α}
    {handler : ε → Async S ε α}
    (only : program.AwaitsOnly allowed)
    (handlerOnly : ∀ reason, (handler reason).AwaitsOnly allowed) :
    (program.tryCatch handler).AwaitsOnly allowed := by
  induction program with
  | settled outcome =>
      cases outcome with
      | ok value => trivial
      | error reason => exact handlerOnly reason
  | await op resume inductionHypothesis =>
      exact ⟨only.1, fun answer => inductionHypothesis answer (only.2 answer)⟩

theorem lift
    {T : Signature}
    {permitted : (S.sum T).Op → Prop}
    {program : Async S ε α}
    (only : program.AwaitsOnly fun op => permitted (.inl op)) :
    (program.lift : Async (S.sum T) ε α).AwaitsOnly permitted := by
  induction program with
  | settled outcome => trivial
  | await op resume inductionHypothesis =>
      exact ⟨only.1, fun answer => inductionHypothesis answer (only.2 answer)⟩

/-- Whatever the program comes to await meets the condition. -/
theorem of_awaits
    {host : Host S ε State Input}
    {program : Async S ε α}
    {before reached : State}
    {awaited : S.Op}
    (only : program.AwaitsOnly allowed)
    (awaits : Awaits host program before awaited reached) :
    allowed awaited := by
  induction awaits with
  | here => exact only.1
  | later _ _ inductionHypothesis => exact inductionHypothesis (only.2 _)

theorem of_forall
    (program : Async S ε α)
    (areAllowed : ∀ op, allowed op) :
    program.AwaitsOnly allowed := by
  induction program with
  | settled outcome => trivial
  | await op resume inductionHypothesis =>
      exact ⟨areAllowed op, inductionHypothesis⟩

/-- What every operation of a program keeps, the program keeps. -/
theorem preserves
    {host : Host S ε State Input}
    (holds : State → Prop)
    {program : Async S ε α}
    {before after : State}
    {outcome : Except ε α}
    (only : program.AwaitsOnly allowed)
    (kept :
      ∀ op input state answer next,
        allowed op →
        holds state →
        host op input state = some (answer, next) →
        holds next)
    (settles : Settles host program before outcome after)
    (initially : holds before) :
    holds after := by
  induction settles with
  | settled outcome state => exact initially
  | await answered rest inductionHypothesis =>
      exact inductionHypothesis (only.2 _)
        (kept _ _ _ _ _ only.1 initially answered)

end Async.AwaitsOnly

/-- Run a program alone on a list of inputs, one for each operation. -/
def Async.runAlone
    (host : Host S ε State Input) :
    Async S ε α → List Input → State → Option (Except ε α × State)
  | .settled outcome, [], state => some (outcome, state)
  | .settled _, _ :: _, _ => none
  | .await _ _, [], _ => none
  | .await op resume, input :: inputs, state =>
      match host op input state with
      | some (answer, middle) =>
          (resume answer).runAlone host inputs middle
      | none => none

/-- An executed run is a run. -/
theorem Settles.of_runAlone
    {host : Host S ε State Input}
    {program : Async S ε α}
    (inputs : List Input)
    {before after : State}
    {outcome : Except ε α}
    (executed :
      program.runAlone host inputs before = some (outcome, after)) :
    Settles host program before outcome after := by
  induction program generalizing inputs before with
  | settled result =>
      cases inputs with
      | nil =>
          cases executed
          exact .settled _ _
      | cons input inputs =>
          cases executed
  | await op resume inductionHypothesis =>
      cases inputs with
      | nil =>
          cases executed
      | cons input inputs =>
          simp only [Async.runAlone] at executed
          split at executed
          · rename_i answer middle answered
            exact .await answered (inductionHypothesis _ inputs executed)
          · cases executed

/--
A program that runs alone settles, and however it is answered it resolves with
what the postcondition allows.
-/
structure Fulfils
    (host : Host S ε State Input)
    (program : Async S ε α)
    (before : State)
    (post : α → State → Prop) :
    Prop where
  settles : ∃ outcome after, Settles host program before outcome after
  resolves :
    ∀ outcome after,
      Settles host program before outcome after →
      ∃ value, outcome = .ok value ∧ post value after

namespace Fulfils

variable {host : Host S ε State Input}
variable {before : State}

theorem pure
    {value : α}
    {post : α → State → Prop}
    (holds : post value before) :
    Fulfils host (Pure.pure value) before post where
  settles := ⟨_, _, Settles.pure_iff.mpr ⟨rfl, rfl⟩⟩
  resolves := by
    intro outcome after settles
    obtain ⟨rfl, rfl⟩ := Settles.pure_iff.mp settles
    exact ⟨value, rfl, holds⟩

theorem perform
    {op : S.Op}
    {post : S.Result op → State → Prop}
    (answers : ∃ input result, host op input before = some result)
    (resolves :
      ∀ input answer after,
        host op input before = some (answer, after) →
        ∃ value, answer = .ok value ∧ post value after) :
    Fulfils host (Async.perform op) before post where
  settles := by
    obtain ⟨input, ⟨answer, after⟩, answered⟩ := answers
    exact ⟨answer, after, Settles.perform_iff.mpr ⟨input, answered⟩⟩
  resolves := by
    intro outcome after settles
    obtain ⟨input, answered⟩ := Settles.perform_iff.mp settles
    exact resolves input outcome after answered

/-- The composition rule: the first program resolves where the next fulfils. -/
theorem bind
    {first : Async S ε α}
    {next : α → Async S ε β}
    {post : β → State → Prop}
    (fulfils :
      Fulfils host first before fun value state =>
        Fulfils host (next value) state post) :
    Fulfils host (first >>= next) before post where
  settles := by
    obtain ⟨outcome, reached, settles⟩ := fulfils.settles
    obtain ⟨value, rfl, goesOn⟩ := fulfils.resolves outcome reached settles
    obtain ⟨result, after, rest⟩ := goesOn.settles
    exact ⟨result, after,
      Settles.bind_iff.mpr (.inl ⟨value, reached, settles, rest⟩)⟩
  resolves := by
    intro outcome after settles
    rcases Settles.bind_iff.mp settles with
      ⟨value, reached, first, rest⟩ | ⟨reason, first, _⟩
    · obtain ⟨_, shape, goesOn⟩ := fulfils.resolves _ reached first
      cases shape
      exact goesOn.resolves outcome after rest
    · obtain ⟨_, shape, _⟩ := fulfils.resolves _ after first
      cases shape

end Fulfils

end Settles

end Prescott
