import Prescott.AsyncInterleaving

namespace Prescott

/-!
# Histories of asynchronous programs

A history lists the operations that a program has awaited with their answers,
whatever the answers are.  What a protocol says of a program holds along every
history of it.
-/

/-- An operation with its answer. -/
structure Answered (S : Signature) (ε : Type) where
  op : S.Op
  answer : Except ε (S.Result op)

section

variable {S : Signature}
variable {ε α Call Reply : Type}

/-- With the answers of a history, a program comes to what is left of it. -/
inductive Async.Along :
    Async S ε α → List (Answered S ε) → Async S ε α → Prop where
  | here (program : Async S ε α) :
      Along program [] program
  | awaited
      {op : S.Op}
      {resume : Except ε (S.Result op) → Async S ε α}
      {answer : Except ε (S.Result op)}
      {history : List (Answered S ε)}
      {reached : Async S ε α}
      (rest : Along (resume answer) history reached) :
      Along (.await op resume) (⟨op, answer⟩ :: history) reached

namespace Protocol

variable {protocol : Protocol S ε Call Reply}
variable {call : Call}
variable {phase : protocol.Phase}
variable {history before later : List (Answered S ε)}

/-- The phase that a history leads to. -/
def after
    (protocol : Protocol S ε Call Reply)
    (call : Call)
    (phase : protocol.Phase)
    (history : List (Answered S ε)) :
    protocol.Phase :=
  history.foldl
    (fun phase answered => protocol.advance call phase answered.op answered.answer)
    phase

@[simp] theorem after_cons
    (answered : Answered S ε) :
    protocol.after call phase (answered :: history) =
      protocol.after call
        (protocol.advance call phase answered.op answered.answer) history :=
  rfl

theorem after_append :
    protocol.after call phase (before ++ later) =
      protocol.after call (protocol.after call phase before) later :=
  List.foldl_append

variable {post : Except ε α → protocol.Phase → Prop}
variable {program reached : Async S ε α}

/-- What is left of a program goes on from the phase that it has come to. -/
theorem Leads.along
    (leads : protocol.Leads call post phase program)
    (along : program.Along history reached) :
    protocol.Leads call post (protocol.after call phase history) reached := by
  induction along generalizing phase with
  | here =>
      exact leads
  | @awaited op resume answer history reached rest inductionHypothesis =>
      exact inductionHypothesis (leads.2 answer)

/-- Every operation of a history was permitted when it was awaited. -/
theorem Leads.permitted
    (leads : protocol.Leads call post phase program)
    (along : program.Along history reached)
    {answered : Answered S ε}
    (shape : history = before ++ answered :: later) :
    protocol.permits call (protocol.after call phase before) answered.op := by
  induction along generalizing phase before with
  | here =>
      simp at shape
  | @awaited op resume answer history reached rest inductionHypothesis =>
      cases before with
      | nil =>
          obtain ⟨rfl, -⟩ := List.cons.inj shape
          exact leads.1
      | cons first others =>
          obtain ⟨rfl, others⟩ := List.cons.inj shape
          rw [after_cons]
          exact inductionHypothesis (leads.2 answer) others

/--
What permitted operations preserve, with the answers that they may get, holds
wherever a history of such answers leads to.
-/
theorem Leads.invariant
    {holds : protocol.Phase → Prop}
    {allowed : Answered S ε → Prop}
    (leads : protocol.Leads call post phase program)
    (preserved :
      ∀ phase op answer,
        holds phase →
        protocol.permits call phase op →
        allowed ⟨op, answer⟩ →
        holds (protocol.advance call phase op answer))
    (initially : holds phase)
    (along : program.Along history reached)
    (answers : ∀ answered ∈ history, allowed answered) :
    holds (protocol.after call phase history) := by
  induction along generalizing phase with
  | here =>
      exact initially
  | @awaited op resume answer history reached rest inductionHypothesis =>
      obtain ⟨first, others⟩ := List.forall_mem_cons.mp answers
      exact inductionHypothesis (leads.2 answer)
        (preserved phase op answer initially leads.1 first) others

end Protocol

end

end Prescott
