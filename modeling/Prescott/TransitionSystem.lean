import Mathlib.Data.List.Basic

namespace Prescott

/-!
# Labelled transition systems

The generic vocabulary for runs of a state machine.  A machine is a relation
`step before label after`; a run is a finite list of labels with the states it
leads through.  Nothing here mentions what the states are.
-/

/-- A finite run of a labelled transition relation, extended at its end. -/
inductive Run
    {State Label : Type}
    (step : State → Label → State → Prop)
    (initial : State) :
    List Label → State → Prop where
  | nil :
      Run step initial [] initial
  | snoc
      {middle final : State}
      {labels : List Label}
      {label : Label}
      (earlier : Run step initial labels middle)
      (last : step middle label final) :
      Run step initial (labels ++ [label]) final

namespace Run

variable {State Label : Type}
variable {step : State → Label → State → Prop}

/-- A single transition is a run of length one. -/
theorem single
    {before after : State}
    {label : Label}
    (taken : step before label after) :
    Run step before [label] after :=
  .snoc .nil taken

/-- Concatenate two runs whose boundary states agree. -/
theorem append
    {initial middle final : State}
    {leading trailing : List Label}
    (first : Run step initial leading middle)
    (later : Run step middle trailing final) :
    Run step initial (leading ++ trailing) final := by
  induction later with
  | nil =>
      simpa using first
  | snoc earlier last inductionHypothesis =>
      rw [← List.append_assoc]
      exact .snoc inductionHypothesis last

/-- A run whose steps are all allowed by a weaker relation is a run of it. -/
theorem mono
    {weaker : State → Label → State → Prop}
    (implies :
      ∀ before label after,
        step before label after →
        weaker before label after)
    {initial final : State}
    {labels : List Label}
    (run : Run step initial labels final) :
    Run weaker initial labels final := by
  induction run with
  | nil =>
      exact .nil
  | snoc earlier last inductionHypothesis =>
      exact .snoc inductionHypothesis (implies _ _ _ last)

/-- Executing a partial step function along a list of labels gives a run. -/
theorem of_foldlM
    {step? : State → Label → Option State}
    {initial final : State}
    {labels : List Label}
    (executed : labels.foldlM step? initial = some final) :
    Run (fun before label after => step? before label = some after)
      initial labels final := by
  induction labels generalizing initial with
  | nil =>
      cases executed
      exact .nil
  | cons label rest inductionHypothesis =>
      rw [List.foldlM_cons] at executed
      obtain ⟨middle, taken, later⟩ := Option.bind_eq_some_iff.mp executed
      exact (single taken).append (inductionHypothesis later)

/--
The invariant rule: what holds initially and is preserved by every step holds
at the end of every run.
-/
theorem invariant
    (holds : State → Prop)
    (preserved :
      ∀ before label after,
        holds before →
        step before label after →
        holds after)
    {initial final : State}
    {labels : List Label}
    (run : Run step initial labels final)
    (initially : holds initial) :
    holds final := by
  induction run with
  | nil =>
      exact initially
  | snoc earlier last inductionHypothesis =>
      exact preserved _ _ _ inductionHypothesis last

/--
If a property fails initially and holds finally, some step of the run
establishes it.
-/
theorem exists_onset
    (holds : State → Prop)
    {initial final : State}
    {labels : List Label}
    (run : Run step initial labels final)
    (failsInitially : ¬ holds initial)
    (holdsFinally : holds final) :
    ∃ leading label trailing before after,
      labels = leading ++ label :: trailing ∧
        Run step initial leading before ∧
        step before label after ∧
        Run step after trailing final ∧
        ¬ holds before ∧
        holds after := by
  induction run with
  | nil =>
      exact (failsInitially holdsFinally).elim
  | @snoc middle final labels label earlier last inductionHypothesis =>
      by_cases holdsBefore : holds middle
      · obtain ⟨leading, onset, trailing, before, after, shape, prior,
            taken, rest, failsBefore, holdsAfter⟩ :=
          inductionHypothesis holdsBefore
        exact ⟨leading, onset, trailing ++ [label], before, after,
          by simp [shape], prior, taken, .snoc rest last,
          failsBefore, holdsAfter⟩
      · exact ⟨labels, label, [], middle, final, rfl, earlier, last,
          .nil, holdsBefore, holdsFinally⟩

end Run

end Prescott
