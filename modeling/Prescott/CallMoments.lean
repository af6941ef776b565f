import Prescott.AsyncInterleaving

namespace Prescott

/-!
# Moments of a call

A call of an interleaving reads the shared state at several moments between its
beginning and its end.  What it has found out is reduced here to one of them:
the turn in which the call enters a phase is the one whose answer brings it
there.
-/

namespace Interleaving

variable {S : Signature}
variable {ε State Input Call Reply : Type}
variable {protocol : Protocol S ε Call Reply}

/-- At some moment of a run the call `pid` is in progress and a condition is met. -/
def AtSomeMoment
    (step :
      Interleaving State protocol → Turn Call Input → Interleaving State protocol → Prop)
    (start : Interleaving State protocol)
    (turns : List (Turn Call Input))
    (final : Interleaving State protocol)
    (pid : Nat)
    (holds : State → Prop) :
    Prop :=
  ∃ earlier later middle,
    turns = earlier ++ later ∧
      Run step start earlier middle ∧
      Run step middle later final ∧
      (∃ op, middle.Awaits pid op) ∧
      holds middle.shared

/-- The next turn brings a call into a phase, by the answer that it awaits. -/
def Enters
    (service : Service S ε State Input Call Reply)
    (pid : Nat)
    (call : Call)
    (reached : protocol.Phase → Prop)
    (before after : Interleaving State protocol) :
    Prop :=
  ∃ phase op input answer,
    before.view.progress pid = some ⟨call, phase⟩ ∧
      ¬reached phase ∧
      before.Awaits pid op ∧
      protocol.permits call phase op ∧
      service.host op input before.shared = some (answer, after.shared) ∧
      reached (protocol.advance call phase op answer)

variable {service : Service S ε State Input Call Reply}
variable {allowed : protocol.View State → Turn Call Input → Prop}

/-- A call that is not in a phase at first, and is in the end, enters it once. -/
theorem exists_entering
    (programs :
      ∀ call,
        protocol.Conforms call (protocol.start call) (service.body call))
    (reached : protocol.Phase → Prop)
    {start final : Interleaving State protocol}
    (conforming : start.Conforming)
    {turns : List (Turn Call Input)}
    (run : Run (Step service allowed) start turns final)
    {pid : Nat}
    {call : Call}
    {phase : protocol.Phase}
    (notAtStart : ¬reached (protocol.start call))
    (notAtFirst :
      ∀ phase, start.view.progress pid = some ⟨call, phase⟩ → ¬reached phase)
    (present : final.view.progress pid = some ⟨call, phase⟩)
    (isReached : reached phase) :
    ∃ earlier later before after,
      turns = earlier ++ later ∧
        Run (Step service allowed) start earlier before ∧
        Run (Step service allowed) before later final ∧
        Enters service pid call reached before after := by
  obtain ⟨earlier, turn, later, before, after, rfl, prior, taken, rest, notYet, entered⟩ :=
    run.exists_onset
      (fun config =>
        ∃ phase, config.view.progress pid = some ⟨call, phase⟩ ∧ reached phase)
      (fun ⟨phase, found, atFirst⟩ => notAtFirst phase found atFirst)
      ⟨phase, present, isReached⟩
  refine ⟨earlier, turn :: later, before, after, rfl, prior, (Run.single taken).append rest,
    ?_⟩
  have beforeConforming := (conforming.moves_of_run programs prior).2
  obtain ⟨enteredPhase, found, isEntered⟩ := entered
  cases turn with
  | invoke other otherCall =>
      obtain ⟨moves, _⟩ := Step.moves programs beforeConforming taken
      generalize after.view = afterView at moves found
      cases moves with
      | invoke fresh begun =>
          rcases Protocol.View.place_cases found with ⟨rfl, shape⟩ | ⟨_, old⟩
          · cases shape
            exact absurd isEntered notAtStart
          · exact absurd ⟨enteredPhase, old, isEntered⟩ notYet
  | resume other input =>
      obtain ⟨moved, phase, op, answer, shared, movedPresent, awaits, permitted, answered,
        shape⟩ := beforeConforming.resumes taken.2
      have sameShared : shared = after.shared :=
        (congrArg Protocol.View.shared shape).symm
      rw [shape] at found
      rcases Protocol.View.place_cases found with ⟨rfl, same⟩ | ⟨_, old⟩
      · cases same
        exact ⟨phase, op, input, answer, movedPresent,
          fun already => notYet ⟨phase, movedPresent, already⟩, awaits, permitted,
          sameShared ▸ answered, isEntered⟩
      · exact absurd ⟨enteredPhase, old, isEntered⟩ notYet

/-- The same calls with the same programs left, whatever protocols follow them. -/
structure Matches
    {other : Protocol S ε Call Reply}
    (config : Interleaving State protocol)
    (followed : Interleaving State other) :
    Prop where
  shared : followed.shared = config.shared
  processes :
    ∀ pid,
      (followed.processes pid).map (fun process => (process.call, process.residual)) =
        (config.processes pid).map fun process => (process.call, process.residual)

/-- A turn can be taken along another protocol. -/
theorem Matches.step
    {other : Protocol S ε Call Reply}
    {before after : Interleaving State protocol}
    {followed : Interleaving State other}
    {turn : Turn Call Input}
    (matching : before.Matches followed)
    (stepped : before.step? service turn = some after) :
    ∃ next, followed.step? service turn = some next ∧ after.Matches next := by
  cases turn with
  | invoke pid call =>
      simp only [step?] at stepped
      split at stepped
      · cases stepped
      · rename_i fresh
        obtain ⟨shared, begun, rfl⟩ := Option.map_eq_some_iff.mp stepped
        have followedFresh : followed.processes pid = none := by
          have same := matching.processes pid
          rw [fresh] at same
          exact Option.map_eq_none_iff.mp same
        refine ⟨_, by simp only [step?, followedFresh, matching.shared, begun]; rfl, rfl, ?_⟩
        intro otherPid
        by_cases same : otherPid = pid
        · subst same
          simp
        · simpa [Function.update_of_ne same] using matching.processes otherPid
  | resume pid input =>
      obtain ⟨process, op, resume, answer, shared, present, awaiting, answered, rfl⟩ :=
        step?_resume stepped
      have same := matching.processes pid
      rw [present] at same
      obtain ⟨followedProcess, followedPresent, shape⟩ := Option.map_eq_some_iff.mp same
      obtain ⟨sameCall, sameResidual⟩ := Prod.mk.inj shape
      rw [awaiting] at sameResidual
      refine ⟨_, by
        simp only [step?, followedPresent, sameResidual, matching.shared, answered]
        rfl, rfl, ?_⟩
      intro otherPid
      by_cases same : otherPid = pid
      · subst same
        simp [sameCall]
      · simpa [Function.update_of_ne same] using matching.processes otherPid

/-- A run can be followed along another protocol. -/
theorem follow
    (other : Protocol S ε Call Reply)
    {shared : State}
    {turns : List (Turn Call Input)}
    {final : Interleaving State protocol}
    (run :
      Run (Step service fun _ _ => True) (.initial protocol shared) turns final) :
    ∃ followed : Interleaving State other,
      Run (Step service fun _ _ => True) (.initial other shared) turns followed ∧
        final.Matches followed := by
  induction run with
  | nil => exact ⟨_, .nil, rfl, fun _ => rfl⟩
  | snoc earlier last inductionHypothesis =>
      obtain ⟨followed, followedRun, matching⟩ := inductionHypothesis
      obtain ⟨next, stepped, nextMatching⟩ := matching.step last.2
      exact ⟨next, .snoc followedRun ⟨trivial, stepped⟩, nextMatching⟩

end Interleaving

end Prescott
