import Mathlib.Algebra.BigOperators.Ring.List
import Mathlib.Algebra.Order.BigOperators.Group.List
import Mathlib.Algebra.Order.Field.Basic
import Mathlib.Order.Bounds.Basic
import Mathlib.Tactic.Linarith

namespace Prescott

/-!
# Statistics of a list

The least and the greatest element of a list as folds, its mean and its
variance, over any ordered field.
-/

namespace ListStatistics

variable {K : Type} [Field K]

/-- The mean of the values; that of no values is zero. -/
def mean (values : List K) : K :=
  values.sum / values.length

/-- The mean of the squared distances from the mean. -/
def variance (values : List K) : K :=
  (values.map fun value => (value - mean values) ^ 2).sum / values.length

section Order

variable {α : Type} [LinearOrder α]

theorem isGreatest_foldl_max
    (first : α)
    (rest : List α) :
    IsGreatest {value | value ∈ first :: rest} (rest.foldl max first) := by
  induction rest generalizing first with
  | nil =>
      simp
  | cons second rest inductionHypothesis =>
      obtain ⟨member, bound⟩ := inductionHypothesis (max first second)
      constructor
      · rw [List.foldl_cons]
        rcases List.mem_cons.mp member with isMax | later
        · rw [isMax]
          rcases max_choice first second with same | same
          · rw [same]
            exact List.mem_cons_self
          · rw [same]
            exact List.mem_cons_of_mem _ List.mem_cons_self
        · exact List.mem_cons_of_mem _ (List.mem_cons_of_mem _ later)
      · have atLeastMax := bound List.mem_cons_self
        intro value isMember
        rcases List.mem_cons.mp isMember with rfl | isLater
        · exact (le_max_left _ _).trans atLeastMax
        · rcases List.mem_cons.mp isLater with rfl | later
          · exact (le_max_right _ _).trans atLeastMax
          · exact bound (List.mem_cons_of_mem _ later)

theorem isLeast_foldl_min
    (first : α)
    (rest : List α) :
    IsLeast {value | value ∈ first :: rest} (rest.foldl min first) :=
  isGreatest_foldl_max (α := αᵒᵈ) first rest

end Order

section Mean

variable [LinearOrder K] [IsStrictOrderedRing K]
variable {values : List K}
variable {least greatest : K}

theorem length_pos_of_ne_nil
    (nonempty : values ≠ []) :
    (0 : K) < values.length :=
  Nat.cast_pos.mpr (List.length_pos_iff.mpr nonempty)

theorem mean_mul_length
    (nonempty : values ≠ []) :
    mean values * values.length = values.sum :=
  div_mul_cancel₀ _ (length_pos_of_ne_nil nonempty).ne'

theorem variance_mul_length
    (nonempty : values ≠ []) :
    variance values * values.length =
      (values.map fun value => (value - mean values) ^ 2).sum :=
  div_mul_cancel₀ _ (length_pos_of_ne_nil nonempty).ne'

/-- The mean is not below a lower bound of the values. -/
theorem le_mean
    (nonempty : values ≠ [])
    (bound : ∀ value ∈ values, least ≤ value) :
    least ≤ mean values := by
  rw [mean, le_div_iff₀ (length_pos_of_ne_nil nonempty), mul_comm,
    ← nsmul_eq_mul]
  exact List.card_nsmul_le_sum values least bound

/-- The mean is not above an upper bound of the values. -/
theorem mean_le
    (nonempty : values ≠ [])
    (bound : ∀ value ∈ values, value ≤ greatest) :
    mean values ≤ greatest := by
  rw [mean, div_le_iff₀ (length_pos_of_ne_nil nonempty), mul_comm,
    ← nsmul_eq_mul]
  exact List.sum_le_card_nsmul values greatest bound

/-- A sum of squares is zero where every term is. -/
theorem sum_sq_eq_zero_iff
    {f : K → K} :
    (values.map fun value => f value ^ 2).sum = 0 ↔
      ∀ value ∈ values, f value = 0 := by
  induction values with
  | nil =>
      simp
  | cons first rest inductionHypothesis =>
      have restNonneg : 0 ≤ (rest.map fun value => f value ^ 2).sum := by
        refine List.sum_nonneg fun term member => ?_
        obtain ⟨value, _, rfl⟩ := List.mem_map.mp member
        exact sq_nonneg _
      rw [List.map_cons, List.sum_cons,
        add_eq_zero_iff_of_nonneg (sq_nonneg _) restNonneg,
        inductionHypothesis, List.forall_mem_cons, sq_eq_zero_iff]

/-- Only equal values have no variance. -/
theorem variance_eq_zero_iff
    (isLeast : IsLeast {value | value ∈ values} least)
    (isGreatest : IsGreatest {value | value ∈ values} greatest) :
    variance values = 0 ↔ least = greatest := by
  have nonempty : values ≠ [] := List.ne_nil_of_mem isLeast.1
  have lower := le_mean nonempty fun value member => isLeast.2 member
  have upper := mean_le nonempty fun value member => isGreatest.2 member
  rw [variance, div_eq_zero_iff,
    or_iff_left (length_pos_of_ne_nil nonempty).ne', sum_sq_eq_zero_iff]
  constructor
  · intro same
    have isMean := sub_eq_zero.mp (same least isLeast.1)
    have alsoMean := sub_eq_zero.mp (same greatest isGreatest.1)
    rw [isMean, alsoMean]
  · rintro rfl value member
    have fromBelow := isLeast.2 member
    have fromAbove := isGreatest.2 member
    have isLower : value = least := le_antisymm fromAbove fromBelow
    have isMean : mean values = least := le_antisymm upper lower
    rw [isLower, isMean, sub_self]

end Mean

end ListStatistics

end Prescott
