import KernelLake.Evaluation
import Mathlib.Order.Compare

/-!
The comparison operators on a linear order, and intervals that refute them.

`Holds` is what an operator says of two elements; `refutes` decides from the comparisons of an
interval's two ends with a literal that the operator holds of no element of the interval. When the
comparisons go through a monotone conversion that is not injective, the decision can be wrong, and
`Collision` says exactly when.
-/

namespace KernelLake.Comparisons

open KernelLake.Expressions KernelLake.Evaluation

/-- What a comparison operator says of two elements of a linear order. -/
def Holds {α : Type} [LinearOrder α] (op : BinaryOperator) (left right : α) : Prop :=
  match op with
  | .equal => left = right
  | .notEqual => left ≠ right
  | .less => left < right
  | .lessEqual => left ≤ right
  | .greater => right < left
  | .greaterEqual => right ≤ left
  | _ => False

theorem accepts_compare {α : Type} [LinearOrder α] (op : BinaryOperator) (left right : α) :
    accepts op (compare left right) = true ↔ Holds op left right := by
  cases ordering : compare left right with
  | lt =>
    have below := compare_lt_iff_lt.mp ordering
    cases op <;> simp [accepts, Holds, below, below.le, below.ne, below.not_gt, below.not_ge]
  | eq =>
    have same := compare_eq_iff_eq.mp ordering
    cases op <;> simp [accepts, Holds, same]
  | gt =>
    have above := compare_gt_iff_gt.mp ordering
    cases op <;> simp [accepts, Holds, above, above.le, above.ne', above.not_gt, above.not_ge]

/-- The decision of an operator against an interval, from the comparisons of the interval's lower and
upper end with the literal. -/
def refutes (op : BinaryOperator) (lower upper : Ordering) : Bool :=
  match op with
  | .equal => lower == .gt || upper == .lt
  | .notEqual => lower == .eq && upper == .eq
  | .less => lower != .lt
  | .lessEqual => lower == .gt
  | .greater => upper != .gt
  | .greaterEqual => upper == .lt
  | _ => false

section Rounding

variable {α β : Type} [LinearOrder α] [LinearOrder β]

/-- A conversion makes an interval's end and a literal equal which are not, on the side that matters
to the operator. -/
def Collision (op : BinaryOperator) (convert : α → β) (lower upper literal : α) : Prop :=
  match op with
  | .less => lower < literal ∧ convert lower = convert literal
  | .greater => literal < upper ∧ convert upper = convert literal
  | .notEqual =>
    convert lower = convert literal ∧ convert upper = convert literal ∧
      ¬(lower = literal ∧ upper = literal)
  | _ => False

theorem refutes_of_collision {op : BinaryOperator} {convert : α → β} {lower upper literal : α}
    (collision : Collision op convert lower upper literal) :
    refutes op (compare (convert lower) (convert literal))
      (compare (convert upper) (convert literal)) = true := by
  cases op with
  | less => simp [refutes, compare_eq_iff_eq.mpr collision.2]
  | greater => simp [refutes, compare_eq_iff_eq.mpr collision.2]
  | notEqual => simp [refutes, compare_eq_iff_eq.mpr collision.1, compare_eq_iff_eq.mpr collision.2.1]
  | _ => cases collision

/-- Without a collision a refuted operator holds of no element of the interval. -/
theorem not_holds_of_refutes {op : BinaryOperator} {convert : α → β} (mono : Monotone convert)
    {lower upper literal value : α} (above : lower ≤ value) (below : value ≤ upper)
    (refuted : refutes op (compare (convert lower) (convert literal))
      (compare (convert upper) (convert literal)) = true)
    (exact_ends : ¬ Collision op convert lower upper literal) : ¬ Holds op value literal := by
  intro holds
  cases op with
  | equal =>
    simp only [refutes, Bool.or_eq_true, beq_iff_eq, compare_gt_iff_gt, compare_lt_iff_lt] at refuted
    obtain rfl : value = literal := holds
    rcases refuted with tooLow | tooHigh
    · exact absurd (mono above) (not_le_of_gt tooLow)
    · exact absurd (mono below) (not_le_of_gt tooHigh)
  | notEqual =>
    simp only [refutes, Bool.and_eq_true, beq_iff_eq, compare_eq_iff_eq] at refuted
    refine exact_ends ⟨refuted.1, refuted.2, fun ends => holds ?_⟩
    exact le_antisymm (ends.2 ▸ below) (ends.1 ▸ above)
  | less =>
    simp only [refutes, bne_iff_ne, ne_eq, compare_lt_iff_lt, not_lt] at refuted
    have lowerBelow : lower < literal := lt_of_le_of_lt above holds
    exact exact_ends ⟨lowerBelow, le_antisymm (mono lowerBelow.le) refuted⟩
  | lessEqual =>
    simp only [refutes, beq_iff_eq, compare_gt_iff_gt] at refuted
    exact absurd (mono (above.trans holds)) (not_le_of_gt refuted)
  | greater =>
    simp only [refutes, bne_iff_ne, ne_eq, compare_gt_iff_gt, not_lt] at refuted
    have upperAbove : literal < upper := lt_of_lt_of_le holds below
    exact exact_ends ⟨upperAbove, le_antisymm refuted (mono upperAbove.le)⟩
  | greaterEqual =>
    simp only [refutes, beq_iff_eq, compare_lt_iff_lt] at refuted
    exact absurd (mono (le_trans holds below)) (not_le_of_gt refuted)
  | _ => cases holds

omit [LinearOrder β] in
/-- A collision loses an element: one end of the interval satisfies the refuted operator. -/
theorem holds_of_collision {op : BinaryOperator} {convert : α → β} {lower upper literal : α}
    (ordered : lower ≤ upper) (collision : Collision op convert lower upper literal) :
    ∃ value, lower ≤ value ∧ value ≤ upper ∧ Holds op value literal := by
  cases op with
  | less => exact ⟨lower, le_refl _, ordered, collision.1⟩
  | greater => exact ⟨upper, ordered, le_refl _, collision.1⟩
  | notEqual =>
    by_cases same : lower = literal
    · exact ⟨upper, ordered, le_refl _, fun equal => collision.2.2 ⟨same, equal⟩⟩
    · exact ⟨lower, le_refl _, ordered, same⟩
  | _ => cases collision

omit [LinearOrder β] in
theorem not_collision_of_injective {op : BinaryOperator} {convert : α → β}
    (injective : Function.Injective convert) (lower upper literal : α) :
    ¬ Collision op convert lower upper literal := by
  intro collision
  cases op with
  | less => exact absurd (injective collision.2) collision.1.ne
  | greater => exact absurd (injective collision.2) collision.1.ne'
  | notEqual => exact collision.2.2 ⟨injective collision.1, injective collision.2.1⟩
  | _ => cases collision

end Rounding

end KernelLake.Comparisons
