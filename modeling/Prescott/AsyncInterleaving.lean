import Mathlib.Logic.Function.Basic
import Prescott.AsyncProgram
import Prescott.TransitionSystem

namespace Prescott

/-!
# Interleaved asynchronous programs

Calls of a service run concurrently on one shared state and may switch at
every awaited operation.  A protocol follows a call from outside, by the
operations it awaits and their answers only.  When every program of the
service conforms to the protocol, invariants of all interleavings can be
proved on the phases of the calls instead of on their programs.
-/

/-- The programs of a service, its host, and the calls a state lets begin. -/
structure Service (S : Signature) (ε State Input Call Reply : Type) where
  body : Call → Async S ε Reply
  host : Host S ε State Input
  begin? : Call → State → Option State := fun _ state => some state

/-- The same programs on a host on which some operations may also fail. -/
def Service.failing
    {S : Signature}
    {ε State Input Call Reply : Type}
    (service : Service S ε State Input Call Reply)
    (mayFail : S.Op → Bool) :
    Service S ε State (Input ⊕ ε) Call Reply where
  body := service.body
  host := service.host.failing mayFail
  begin? := service.begin?

/-- The phases a call goes through, as far as its operations show them. -/
structure Protocol (S : Signature) (ε Call Reply : Type) where
  Phase : Type
  start : Call → Phase
  permits : Call → Phase → S.Op → Prop
  advance :
    Call → Phase → (op : S.Op) → Except ε (S.Result op) → Phase
  finishes : Call → Phase → Except ε Reply → Prop

/-- A scheduling decision: a call begins, or the next answer arrives. -/
inductive Turn (Call Input : Type) where
  | invoke (pid : Nat) (call : Call)
  | resume (pid : Nat) (input : Input)
  deriving Repr, DecidableEq

/-- The call that a turn is about. -/
def Turn.pid {Call Input : Type} : Turn Call Input → Nat
  | .invoke pid _ => pid
  | .resume pid _ => pid

section Interleaving

variable {S : Signature}
variable {ε State Input Call Reply : Type}

namespace Protocol

/--
From a phase on, a program awaits only permitted operations and settles with
an outcome and in a phase that the postcondition allows.
-/
def Leads
    {α : Type}
    (protocol : Protocol S ε Call Reply)
    (call : Call)
    (post : Except ε α → protocol.Phase → Prop) :
    protocol.Phase → Async S ε α → Prop
  | phase, .settled outcome => post outcome phase
  | phase, .await op resume =>
      protocol.permits call phase op ∧
        ∀ answer,
          protocol.Leads call post
            (protocol.advance call phase op answer)
            (resume answer)

section Leads

variable {α β : Type}
variable {protocol : Protocol S ε Call Reply}
variable {call : Call}
variable {phase : protocol.Phase}

/-- The first operation of a composition decides how the rest has to go on. -/
theorem leads_perform_bind
    {op : S.Op}
    {next : S.Result op → Async S ε α}
    {post : Except ε α → protocol.Phase → Prop} :
    protocol.Leads call post phase (Async.perform op >>= next) ↔
      protocol.permits call phase op ∧
        (∀ value,
          protocol.Leads call post
            (protocol.advance call phase op (.ok value)) (next value)) ∧
        ∀ reason,
          post (.error reason)
            (protocol.advance call phase op (.error reason)) := by
  constructor
  · rintro ⟨permitted, leads⟩
    exact ⟨permitted, fun value => leads (.ok value),
      fun reason => leads (.error reason)⟩
  · rintro ⟨permitted, resolved, rejected⟩
    refine ⟨permitted, fun answer => ?_⟩
    cases answer with
    | ok value =>
        exact resolved value
    | error reason =>
        exact rejected reason

/-- A weaker postcondition holds as well. -/
theorem Leads.mono
    {program : Async S ε α}
    {stronger weaker : Except ε α → protocol.Phase → Prop}
    (leads : protocol.Leads call stronger phase program)
    (implies :
      ∀ outcome phase, stronger outcome phase → weaker outcome phase) :
    protocol.Leads call weaker phase program := by
  induction program generalizing phase with
  | settled outcome =>
      exact implies outcome phase leads
  | await op resume inductionHypothesis =>
      exact ⟨leads.1, fun answer =>
        inductionHypothesis answer (leads.2 answer)⟩

/-- The composition rule. -/
theorem Leads.bind
    {first : Async S ε α}
    {next : α → Async S ε β}
    {middle : Except ε α → protocol.Phase → Prop}
    {post : Except ε β → protocol.Phase → Prop}
    (leads : protocol.Leads call middle phase first)
    (resolved :
      ∀ value phase,
        middle (.ok value) phase →
        protocol.Leads call post phase (next value))
    (rejected :
      ∀ reason phase,
        middle (.error reason) phase → post (.error reason) phase) :
    protocol.Leads call post phase (first >>= next) := by
  induction first generalizing phase with
  | settled outcome =>
      cases outcome with
      | ok value =>
          exact resolved value phase leads
      | error reason =>
          exact rejected reason phase leads
  | await op resume inductionHypothesis =>
      exact ⟨leads.1, fun answer =>
        inductionHypothesis answer (leads.2 answer)⟩

/-- The rule of `try { ... } catch { ... }`. -/
theorem Leads.tryCatch
    {body : Async S ε α}
    {handler : ε → Async S ε α}
    {middle post : Except ε α → protocol.Phase → Prop}
    (leads : protocol.Leads call middle phase body)
    (resolved :
      ∀ value phase, middle (.ok value) phase → post (.ok value) phase)
    (rejected :
      ∀ reason phase,
        middle (.error reason) phase →
        protocol.Leads call post phase (handler reason)) :
    protocol.Leads call post phase (body.tryCatch handler) := by
  induction body generalizing phase with
  | settled outcome =>
      cases outcome with
      | ok value =>
          exact resolved value phase leads
      | error reason =>
          exact rejected reason phase leads
  | await op resume inductionHypothesis =>
      exact ⟨leads.1, fun answer =>
        inductionHypothesis answer (leads.2 answer)⟩

/-- An attempted program settles where the program does. -/
theorem Leads.attempt
    {body : Async S ε α}
    {middle : Except ε α → protocol.Phase → Prop}
    {post : Except ε (Except ε α) → protocol.Phase → Prop}
    (leads : protocol.Leads call middle phase body)
    (settled :
      ∀ outcome phase, middle outcome phase → post (.ok outcome) phase) :
    protocol.Leads call post phase body.attempt := by
  induction body generalizing phase with
  | settled outcome =>
      exact settled outcome phase leads
  | await op resume inductionHypothesis =>
      exact ⟨leads.1, fun answer =>
        inductionHypothesis answer (leads.2 answer)⟩

/-- The rule of `try { ... } finally { ... }`. -/
theorem Leads.finallyDo
    {body : Async S ε α}
    {cleanUp : Async S ε Unit}
    {middle post : Except ε α → protocol.Phase → Prop}
    (leads : protocol.Leads call middle phase body)
    (cleans :
      ∀ outcome phase,
        middle outcome phase →
        protocol.Leads call
          (fun cleaned phase =>
            match cleaned with
            | .ok () => post outcome phase
            | .error reason => post (.error reason) phase)
          phase cleanUp) :
    protocol.Leads call post phase (body.finallyDo cleanUp) := by
  have attempted :
      protocol.Leads call
        (fun attempted phase =>
          ∃ outcome, attempted = .ok outcome ∧ middle outcome phase)
        phase body.attempt :=
    leads.attempt fun outcome phase settled => ⟨outcome, rfl, settled⟩
  refine attempted.bind ?_ ?_
  · rintro outcome phase ⟨_, shape, settled⟩
    cases shape
    exact (cleans _ phase settled).bind
      (fun _ _ cleaned => cleaned) fun _ _ failed => failed
  · rintro reason phase ⟨_, shape, _⟩
    cases shape

end Leads

/-- From a phase on, a program awaits and settles as the protocol says. -/
def Conforms
    (protocol : Protocol S ε Call Reply)
    (call : Call)
    (phase : protocol.Phase)
    (program : Async S ε Reply) :
    Prop :=
  protocol.Leads call (fun outcome phase => protocol.finishes call phase outcome)
    phase program

section Conforms

variable {protocol : Protocol S ε Call Reply}
variable {call : Call}
variable {phase : protocol.Phase}

/-- The first operation of a program decides how the rest has to go on. -/
theorem conforms_perform_bind
    {op : S.Op}
    {next : S.Result op → Async S ε Reply} :
    protocol.Conforms call phase (Async.perform op >>= next) ↔
      protocol.permits call phase op ∧
        (∀ value,
          protocol.Conforms call
            (protocol.advance call phase op (.ok value)) (next value)) ∧
        ∀ reason,
          protocol.finishes call
            (protocol.advance call phase op (.error reason))
            (.error reason) :=
  leads_perform_bind

end Conforms

/-- Follow a call along two protocols at once. -/
abbrev prod (first second : Protocol S ε Call Reply) :
    Protocol S ε Call Reply where
  Phase := first.Phase × second.Phase
  start := fun call => (first.start call, second.start call)
  permits := fun call phase op =>
    first.permits call phase.1 op ∧ second.permits call phase.2 op
  advance := fun call phase op answer =>
    (first.advance call phase.1 op answer,
      second.advance call phase.2 op answer)
  finishes := fun call phase outcome =>
    first.finishes call phase.1 outcome ∧ second.finishes call phase.2 outcome

/-- A program that conforms to two protocols conforms to both at once. -/
theorem Conforms.prod
    {first second : Protocol S ε Call Reply}
    {call : Call}
    {phase : first.Phase}
    {other : second.Phase}
    {program : Async S ε Reply}
    (conforms : first.Conforms call phase program)
    (alsoConforms : second.Conforms call other program) :
    (first.prod second).Conforms call (phase, other) program := by
  induction program generalizing phase other with
  | settled outcome =>
      exact ⟨conforms, alsoConforms⟩
  | await op resume inductionHypothesis =>
      exact ⟨⟨conforms.1, alsoConforms.1⟩, fun answer =>
        inductionHypothesis answer (conforms.2 answer) (alsoConforms.2 answer)⟩

/-- A call that has begun, with the phase it is in. -/
structure Progress (protocol : Protocol S ε Call Reply) where
  call : Call
  phase : protocol.Phase

/-- What is seen of an interleaving: the shared state and all phases. -/
structure View (State : Type) (protocol : Protocol S ε Call Reply) where
  shared : State
  progress : Nat → Option protocol.Progress

/-- No call has begun. -/
def View.initial
    (protocol : Protocol S ε Call Reply)
    (shared : State) :
    View State protocol where
  shared := shared
  progress := fun _ => none

/-- Put one call into a phase and replace the shared state. -/
def View.place
    {protocol : Protocol S ε Call Reply}
    (view : View State protocol)
    (pid : Nat)
    (progress : protocol.Progress)
    (shared : State) :
    View State protocol where
  shared := shared
  progress := Function.update view.progress pid (some progress)

/-- The call is where it was put, and the other calls are where they were. -/
theorem View.place_cases
    {protocol : Protocol S ε Call Reply}
    {view : View State protocol}
    {pid other : Nat}
    {placed found : protocol.Progress}
    {shared : State}
    (present :
      (view.place pid placed shared).progress other = some found) :
    (other = pid ∧ found = placed) ∨
      (other ≠ pid ∧ view.progress other = some found) := by
  by_cases same : other = pid
  · subst same
    simp only [place, Function.update_self, Option.some.injEq] at present
    exact .inl ⟨rfl, present.symm⟩
  · simp only [place, Function.update_of_ne same] at present
    exact .inr ⟨same, present⟩

/-- The call `pid` is in a phase. -/
def View.InPhase
    {protocol : Protocol S ε Call Reply}
    (view : View State protocol)
    (pid : Nat)
    (phase : protocol.Phase) :
    Prop :=
  ∃ call, view.progress pid = some ⟨call, phase⟩

/-- A call is in one phase at a time. -/
theorem View.InPhase.eq
    {protocol : Protocol S ε Call Reply}
    {view : View State protocol}
    {pid : Nat}
    {call : Call}
    {phase other : protocol.Phase}
    (inPhase : view.InPhase pid other)
    (present : view.progress pid = some ⟨call, phase⟩) :
    other = phase := by
  obtain ⟨_, found⟩ := inPhase
  rw [present] at found
  cases found
  rfl

/-- A call that does not move stays in its phase. -/
theorem View.InPhase.place
    {protocol : Protocol S ε Call Reply}
    {view : View State protocol}
    {pid other : Nat}
    {phase : protocol.Phase}
    {progress : protocol.Progress}
    {shared : State}
    (inPhase : view.InPhase other phase)
    (different : other ≠ pid) :
    (view.place pid progress shared).InPhase other phase := by
  obtain ⟨call, present⟩ := inPhase
  refine ⟨call, ?_⟩
  simp only [View.place, Function.update_of_ne different]
  exact present

/-- A call is in the phase it was put into. -/
theorem View.inPhase_place
    {protocol : Protocol S ε Call Reply}
    {view : View State protocol}
    {pid : Nat}
    {progress : protocol.Progress}
    {shared : State} :
    (view.place pid progress shared).InPhase pid progress.phase := by
  refine ⟨progress.call, ?_⟩
  simp only [View.place, Function.update_self]

/-- After a move the call that moved is in its new phase, the others as before. -/
theorem View.InPhase.of_place
    {protocol : Protocol S ε Call Reply}
    {view : View State protocol}
    {pid other : Nat}
    {phase : protocol.Phase}
    {progress : protocol.Progress}
    {shared : State}
    (inPhase : (view.place pid progress shared).InPhase other phase) :
    (other = pid ∧ phase = progress.phase) ∨
      (other ≠ pid ∧ view.InPhase other phase) := by
  obtain ⟨call, found⟩ := inPhase
  rcases View.place_cases found with ⟨same, rfl⟩ | ⟨different, earlier⟩
  · exact .inl ⟨same, rfl⟩
  · exact .inr ⟨different, call, earlier⟩

/-- The transitions of an interleaving as a protocol describes them. -/
inductive Moves
    (service : Service S ε State Input Call Reply)
    (protocol : Protocol S ε Call Reply) :
    View State protocol → Turn Call Input → View State protocol → Prop where
  | invoke
      {view : View State protocol}
      {pid : Nat}
      {call : Call}
      {shared : State}
      (fresh : view.progress pid = none)
      (begun : service.begin? call view.shared = some shared) :
      Moves service protocol view (.invoke pid call)
        (view.place pid ⟨call, protocol.start call⟩ shared)
  | resume
      {view : View State protocol}
      {pid : Nat}
      {call : Call}
      {phase : protocol.Phase}
      {op : S.Op}
      {input : Input}
      {answer : Except ε (S.Result op)}
      {shared : State}
      (present : view.progress pid = some ⟨call, phase⟩)
      (permitted : protocol.permits call phase op)
      (answered : service.host op input view.shared = some (answer, shared)) :
      Moves service protocol view (.resume pid input)
        (view.place pid ⟨call, protocol.advance call phase op answer⟩ shared)

/-- What the phases of a call preserve holds of all calls in every run. -/
theorem progress_of_moves
    {service : Service S ε State Input Call Reply}
    {protocol : Protocol S ε Call Reply}
    (holds : Call → protocol.Phase → Prop)
    (starts : ∀ call, holds call (protocol.start call))
    (advances :
      ∀ call phase op answer,
        holds call phase →
        protocol.permits call phase op →
        holds call (protocol.advance call phase op answer))
    {allowed : View State protocol → Turn Call Input → Prop}
    {shared : State}
    {turns : List (Turn Call Input)}
    {final : View State protocol}
    (moves :
      Run
        (fun before turn after =>
          allowed before turn ∧ protocol.Moves service before turn after)
        (View.initial protocol shared) turns final)
    {pid : Nat}
    {call : Call}
    {phase : protocol.Phase}
    (present : final.progress pid = some ⟨call, phase⟩) :
    holds call phase := by
  refine moves.invariant
    (fun view =>
      ∀ pid call phase,
        view.progress pid = some ⟨call, phase⟩ → holds call phase)
    ?_ ?_ pid call phase present
  · rintro before turn after held ⟨_, moved⟩ other otherCall otherPhase found
    cases moved with
    | invoke fresh begun =>
        rcases View.place_cases found with ⟨_, shape⟩ | ⟨_, earlier⟩
        · cases shape
          exact starts _
        · exact held other otherCall otherPhase earlier
    | resume present permitted answered =>
        rcases View.place_cases found with ⟨_, shape⟩ | ⟨_, earlier⟩
        · cases shape
          exact advances _ _ _ _ (held _ _ _ present) permitted
        · exact held other otherCall otherPhase earlier
  · intro pid call phase found
    cases found

end Protocol

/-- A call in progress or settled: what is left of its program. -/
structure Process (protocol : Protocol S ε Call Reply) where
  call : Call
  phase : protocol.Phase
  residual : Async S ε Reply

/-- All calls begun so far, over one shared state. -/
structure Interleaving
    (State : Type)
    (protocol : Protocol S ε Call Reply) where
  shared : State
  processes : Nat → Option (Process protocol)

namespace Interleaving

variable {protocol : Protocol S ε Call Reply}

/-- No call has begun. -/
def initial
    (protocol : Protocol S ε Call Reply)
    (shared : State) :
    Interleaving State protocol where
  shared := shared
  processes := fun _ => none

/-- Forget the programs. -/
def view (config : Interleaving State protocol) :
    protocol.View State where
  shared := config.shared
  progress := fun pid =>
    (config.processes pid).map fun process =>
      ⟨process.call, process.phase⟩

/-- The value the call `pid` resolved with. -/
def reply (config : Interleaving State protocol) (pid : Nat) :
    Option Reply :=
  (config.processes pid).bind fun process => process.residual.resolved

/-- Take one turn, where it is possible. -/
def step?
    (service : Service S ε State Input Call Reply)
    (config : Interleaving State protocol) :
    Turn Call Input → Option (Interleaving State protocol)
  | .invoke pid call =>
      match config.processes pid with
      | some _ => none
      | none =>
          (service.begin? call config.shared).map fun shared =>
            { shared
              processes :=
                Function.update config.processes pid
                  (some ⟨call, protocol.start call, service.body call⟩) }
  | .resume pid input =>
      match config.processes pid with
      | none => none
      | some process =>
          match process.residual with
          | .settled _ => none
          | .await op resume =>
              (service.host op input config.shared).map fun result =>
                { shared := result.2
                  processes :=
                    Function.update config.processes pid
                      (some
                        { process with
                          phase :=
                            protocol.advance process.call process.phase op
                              result.1
                          residual := resume result.1 }) }

/-- A turn that an additional condition on the view allows. -/
def Step
    (service : Service S ε State Input Call Reply)
    (allowed : protocol.View State → Turn Call Input → Prop)
    (before : Interleaving State protocol)
    (turn : Turn Call Input)
    (after : Interleaving State protocol) :
    Prop :=
  allowed before.view turn ∧ before.step? service turn = some after

/-- A turn that a condition on the programs and what they await allows. -/
def StepWhere
    (service : Service S ε State Input Call Reply)
    (allowed : Interleaving State protocol → Turn Call Input → Prop)
    (before : Interleaving State protocol)
    (turn : Turn Call Input)
    (after : Interleaving State protocol) :
    Prop :=
  allowed before turn ∧ before.step? service turn = some after

/-- A call that goes on has got the answer to what its program awaits. -/
theorem step?_resume
    {service : Service S ε State Input Call Reply}
    {before after : Interleaving State protocol}
    {pid : Nat}
    {input : Input}
    (stepped : before.step? service (.resume pid input) = some after) :
    ∃ process op resume answer shared,
      before.processes pid = some process ∧
        process.residual = .await op resume ∧
        service.host op input before.shared = some (answer, shared) ∧
        after =
          { shared
            processes :=
              Function.update before.processes pid
                (some
                  { process with
                    phase := protocol.advance process.call process.phase op answer
                    residual := resume answer }) } := by
  simp only [step?] at stepped
  split at stepped
  · cases stepped
  · rename_i process present
    split at stepped
    · cases stepped
    · rename_i op resume awaiting
      obtain ⟨⟨answer, shared⟩, answered, rfl⟩ := Option.map_eq_some_iff.mp stepped
      exact ⟨process, op, resume, answer, shared, present, awaiting, answered, rfl⟩

/-- Executed turns are an unconditional run. -/
theorem run_of_foldlM
    {service : Service S ε State Input Call Reply}
    {initial final : Interleaving State protocol}
    {turns : List (Turn Call Input)}
    (executed : turns.foldlM (step? service) initial = some final) :
    Run (Step service fun _ _ => True) initial turns final :=
  (Run.of_foldlM executed).mono fun _ _ _ stepped => ⟨trivial, stepped⟩

/-- Take turns as long as each of them passes a check. -/
def executeIf
    (service : Service S ε State Input Call Reply)
    (check : protocol.View State → Turn Call Input → Bool)
    (start : Interleaving State protocol)
    (turns : List (Turn Call Input)) :
    Option (Interleaving State protocol) :=
  turns.foldlM
    (fun config turn =>
      if check config.view turn then config.step? service turn else none)
    start

/-- Turns that pass a check are a run under the condition it ensures. -/
theorem runWhere_of_foldlM
    {service : Service S ε State Input Call Reply}
    {allowed : Interleaving State protocol → Turn Call Input → Prop}
    {check : Interleaving State protocol → Turn Call Input → Bool}
    (ensures : ∀ config turn, check config turn = true → allowed config turn)
    {start final : Interleaving State protocol}
    {turns : List (Turn Call Input)}
    (executed :
      turns.foldlM
          (fun config turn => if check config turn then config.step? service turn else none)
          start =
        some final) :
    Run (StepWhere service allowed) start turns final := by
  refine (Run.of_foldlM executed).mono fun before turn after stepped => ?_
  split at stepped
  · rename_i passed
    exact ⟨ensures _ _ passed, stepped⟩
  · cases stepped

/-- As before, for a check that looks at the phases only. -/
theorem run_of_executeIf
    {service : Service S ε State Input Call Reply}
    {allowed : protocol.View State → Turn Call Input → Prop}
    {check : protocol.View State → Turn Call Input → Bool}
    (ensures : ∀ view turn, check view turn = true → allowed view turn)
    {start final : Interleaving State protocol}
    {turns : List (Turn Call Input)}
    (executed : start.executeIf service check turns = some final) :
    Run (Step service allowed) start turns final :=
  runWhere_of_foldlM (fun config => ensures config.view) executed

/-- Only calls below a bound have begun. -/
def Below (config : Interleaving State protocol) (bound : Nat) : Prop :=
  ∀ pid, bound ≤ pid → config.processes pid = none

/-- A call that has begun is below the bound. -/
theorem Below.mem_range
    {config : Interleaving State protocol}
    {bound pid : Nat}
    {progress : protocol.Progress}
    (below : config.Below bound)
    (present : config.view.progress pid = some progress) :
    pid ∈ List.range bound := by
  obtain ⟨_, found, _⟩ := Option.map_eq_some_iff.mp present
  rw [List.mem_range]
  by_contra above
  rw [below pid (Nat.le_of_not_lt above)] at found
  cases found

/-- A turn of a call below the bound lets no other call begin. -/
theorem Below.step
    {service : Service S ε State Input Call Reply}
    {before after : Interleaving State protocol}
    {turn : Turn Call Input}
    {bound : Nat}
    (below : before.Below bound)
    (turnBelow : turn.pid < bound)
    (stepped : before.step? service turn = some after) :
    after.Below bound := by
  intro other above
  have different : other ≠ turn.pid := by
    rintro rfl
    exact Nat.not_le_of_lt turnBelow above
  cases turn with
  | invoke pid call =>
      simp only [step?] at stepped
      split at stepped
      · cases stepped
      · obtain ⟨shared, _, rfl⟩ := Option.map_eq_some_iff.mp stepped
        exact (Function.update_of_ne different ..).trans (below other above)
  | resume pid input =>
      obtain ⟨process, op, resume, answer, shared, _, _, _, rfl⟩ :=
        step?_resume stepped
      exact (Function.update_of_ne different ..).trans (below other above)

/-- As before, for a check that looks at the calls below a bound only. -/
theorem runWhere_of_foldlM_below
    {service : Service S ε State Input Call Reply}
    {allowed : Interleaving State protocol → Turn Call Input → Prop}
    {check : Interleaving State protocol → Turn Call Input → Bool}
    {bound : Nat}
    (ensures :
      ∀ config : Interleaving State protocol,
        config.Below bound → ∀ turn, check config turn = true → allowed config turn)
    {start final : Interleaving State protocol}
    {turns : List (Turn Call Input)}
    (startBelow : start.Below bound)
    (turnsBelow : ∀ turn ∈ turns, turn.pid < bound)
    (executed :
      turns.foldlM
          (fun config turn => if check config turn then config.step? service turn else none)
          start =
        some final) :
    Run (StepWhere service allowed) start turns final := by
  have run : Run (StepWhere service fun config turn => check config turn = true) start
      turns final :=
    runWhere_of_foldlM (fun _ _ passed => passed) executed
  have below :
      final.Below bound ∧ Run (StepWhere service allowed) start turns final := by
    clear executed
    induction run with
    | nil =>
        exact ⟨startBelow, .nil⟩
    | snoc earlier last inductionHypothesis =>
        obtain ⟨middleBelow, steps⟩ :=
          inductionHypothesis fun turn member =>
            turnsBelow turn (List.mem_append_left _ member)
        have turnBelow :=
          turnsBelow _ (List.mem_append_right _ (List.mem_singleton.mpr rfl))
        exact ⟨middleBelow.step turnBelow last.2,
          .snoc steps ⟨ensures _ middleBelow _ last.1, last.2⟩⟩
  exact below.2

theorem run_of_executeIf_below
    {service : Service S ε State Input Call Reply}
    {allowed : protocol.View State → Turn Call Input → Prop}
    {check : protocol.View State → Turn Call Input → Bool}
    {bound : Nat}
    (ensures :
      ∀ config : Interleaving State protocol,
        config.Below bound →
        ∀ turn, check config.view turn = true → allowed config.view turn)
    {start final : Interleaving State protocol}
    {turns : List (Turn Call Input)}
    (startBelow : start.Below bound)
    (turnsBelow : ∀ turn ∈ turns, turn.pid < bound)
    (executed : start.executeIf service check turns = some final) :
    Run (Step service allowed) start turns final :=
  runWhere_of_foldlM_below ensures startBelow turnsBelow executed

/-- All programs are in the phases their calls are said to be in. -/
def Conforming (config : Interleaving State protocol) : Prop :=
  ∀ pid process,
    config.processes pid = some process →
    protocol.Conforms process.call process.phase process.residual

/-- Replacing one process replaces its progress. -/
theorem view_update
    (shared : State)
    (processes : Nat → Option (Process protocol))
    (pid : Nat)
    (process : Process protocol) :
    view
        { shared
          processes := Function.update processes pid (some process) } =
      (view { shared, processes }).place pid
        ⟨process.call, process.phase⟩ shared := by
  unfold view Protocol.View.place
  congr 1
  funext other
  by_cases same : other = pid
  · subst same
    simp
  · simp [Function.update_of_ne same]

/-- A turn of conforming programs is a move of the protocol. -/
theorem Step.moves
    {service : Service S ε State Input Call Reply}
    {allowed : protocol.View State → Turn Call Input → Prop}
    (programs :
      ∀ call,
        protocol.Conforms call (protocol.start call) (service.body call))
    {before after : Interleaving State protocol}
    {turn : Turn Call Input}
    (conforming : before.Conforming)
    (taken : Step service allowed before turn after) :
    protocol.Moves service before.view turn after.view ∧
      after.Conforming := by
  obtain ⟨_, stepped⟩ := taken
  cases turn with
  | invoke pid call =>
      simp only [step?] at stepped
      split at stepped
      · cases stepped
      · rename_i fresh
        obtain ⟨shared, begun, rfl⟩ := Option.map_eq_some_iff.mp stepped
        constructor
        · rw [view_update]
          exact .invoke (by simp [view, fresh]) begun
        · intro other process present
          by_cases same : other = pid
          · subst same
            simp only [Function.update_self, Option.some.injEq] at present
            subst present
            exact programs call
          · simp only [Function.update_of_ne same] at present
            exact conforming other process present
  | resume pid input =>
      obtain ⟨process, op, resume, answer, shared, present, awaiting, answered, rfl⟩ :=
        step?_resume stepped
      have conforms := conforming pid process present
      rw [awaiting] at conforms
      constructor
      · rw [view_update]
        exact .resume (by simp [view, present]) conforms.1 answered
      · intro other later laterPresent
        by_cases same : other = pid
        · subst same
          simp only [Function.update_self, Option.some.injEq] at laterPresent
          subst laterPresent
          exact conforms.2 answer
        · simp only [Function.update_of_ne same] at laterPresent
          exact conforming other later laterPresent

/-- From conforming programs on, a run is a run of the protocol. -/
theorem Conforming.moves_of_run
    {service : Service S ε State Input Call Reply}
    {allowed : protocol.View State → Turn Call Input → Prop}
    (programs :
      ∀ call,
        protocol.Conforms call (protocol.start call) (service.body call))
    {start final : Interleaving State protocol}
    (conforming : start.Conforming)
    {turns : List (Turn Call Input)}
    (run : Run (Step service allowed) start turns final) :
    Run (fun before turn after =>
        allowed before turn ∧ protocol.Moves service before turn after)
      start.view turns final.view ∧
      final.Conforming := by
  induction run with
  | nil =>
      exact ⟨.nil, conforming⟩
  | snoc earlier last inductionHypothesis =>
      obtain ⟨moved, conforming⟩ := inductionHypothesis
      obtain ⟨moves, stillConforming⟩ :=
        Step.moves programs conforming last
      exact ⟨.snoc moved ⟨last.1, moves⟩, stillConforming⟩

/-- A run of conforming programs is a run of the protocol. -/
theorem moves_of_run
    {service : Service S ε State Input Call Reply}
    {allowed : protocol.View State → Turn Call Input → Prop}
    (programs :
      ∀ call,
        protocol.Conforms call (protocol.start call) (service.body call))
    {shared : State}
    {turns : List (Turn Call Input)}
    {final : Interleaving State protocol}
    (run : Run (Step service allowed) (initial protocol shared) turns final) :
    Run (fun before turn after =>
        allowed before turn ∧ protocol.Moves service before turn after)
      (Protocol.View.initial protocol shared) turns final.view ∧
      final.Conforming := by
  refine Conforming.moves_of_run programs ?_ run
  intro pid process present
  cases present

/-- The call `pid` awaits an operation. -/
def Awaits
    (config : Interleaving State protocol)
    (pid : Nat)
    (op : S.Op) :
    Prop :=
  ∃ process resume,
    config.processes pid = some process ∧
      process.residual = .await op resume

/-- What a call awaits is permitted in its phase. -/
theorem Conforming.permits
    {config : Interleaving State protocol}
    (conforming : config.Conforming)
    {pid : Nat}
    {op : S.Op}
    (awaits : config.Awaits pid op) :
    ∃ call phase,
      config.view.progress pid = some ⟨call, phase⟩ ∧
        protocol.permits call phase op := by
  obtain ⟨process, resume, present, awaiting⟩ := awaits
  have conforms := conforming pid process present
  rw [awaiting] at conforms
  exact ⟨process.call, process.phase, by simp [view, present], conforms.1⟩

/-- A call that goes on moves to the phase after the answer. -/
theorem Conforming.resumes
    {service : Service S ε State Input Call Reply}
    {before after : Interleaving State protocol}
    {pid : Nat}
    {input : Input}
    (conforming : before.Conforming)
    (stepped : before.step? service (.resume pid input) = some after) :
    ∃ call phase op answer shared,
      before.view.progress pid = some ⟨call, phase⟩ ∧
        before.Awaits pid op ∧
        protocol.permits call phase op ∧
        service.host op input before.shared = some (answer, shared) ∧
        after.view =
          before.view.place pid ⟨call, protocol.advance call phase op answer⟩
            shared := by
  obtain ⟨process, op, resume, answer, shared, present, awaiting, answered, rfl⟩ :=
    step?_resume stepped
  have conforms := conforming pid process present
  rw [awaiting] at conforms
  refine ⟨process.call, process.phase, op, answer, shared, by simp [view, present],
    ⟨process, resume, present, awaiting⟩, conforms.1, answered, ?_⟩
  rw [view_update]
  rfl

/-- Such turns keep what each of them keeps while the programs conform. -/
theorem invariant_of_run
    {service : Service S ε State Input Call Reply}
    {allowed : Interleaving State protocol → Turn Call Input → Prop}
    (programs :
      ∀ call,
        protocol.Conforms call (protocol.start call) (service.body call))
    (holds : protocol.View State → Prop)
    (kept :
      ∀ before turn after,
        before.Conforming →
        allowed before turn →
        before.step? service turn = some after →
        holds before.view →
        holds after.view)
    {shared : State}
    {turns : List (Turn Call Input)}
    {final : Interleaving State protocol}
    (initially : holds (.initial protocol shared))
    (run : Run (StepWhere service allowed) (initial protocol shared) turns final) :
    holds final.view ∧ final.Conforming := by
  refine run.invariant (fun config => holds config.view ∧ config.Conforming) ?_
    ⟨initially, fun pid process present => by cases present⟩
  rintro before turn after ⟨held, conforming⟩ ⟨isAllowed, stepped⟩
  have taken : Step service (fun _ _ => True) before turn after := ⟨trivial, stepped⟩
  exact ⟨kept before turn after conforming isAllowed stepped held,
    (taken.moves programs conforming).2⟩

/-- A resolved call is in a phase in which the protocol lets it finish. -/
theorem Conforming.finishes
    {config : Interleaving State protocol}
    (conforming : config.Conforming)
    {pid : Nat}
    {value : Reply}
    (replied : config.reply pid = some value) :
    ∃ call phase,
      config.view.progress pid = some ⟨call, phase⟩ ∧
        protocol.finishes call phase (.ok value) := by
  unfold reply at replied
  obtain ⟨process, present, resolved⟩ := Option.bind_eq_some_iff.mp replied
  have conforms := conforming pid process present
  refine ⟨process.call, process.phase, by simp [view, present], ?_⟩
  unfold Async.resolved at resolved
  split at resolved
  · rename_i outcome shape
    cases resolved
    rw [shape] at conforms
    exact conforms
  · cases resolved

end Interleaving

end Interleaving

end Prescott
