import KernelLake.Library.StableSort
import KernelLake.PlanSemantics
import Mathlib.Algebra.Order.Field.Basic
import Mathlib.Data.Rat.Cast.Order
import Mathlib.Data.String.Basic

/-!
The sort order of rows is total and transitive.

Every value has a place in one lexicographic order, which `sortCompare` reads off; a list of sort keys
then compares rows lexicographically by the places of their keys. Sorting is therefore stable under a
total preorder, and selecting rows commutes with it.
-/

namespace KernelLake.SortProofs

open KernelLake.Types KernelLake.Expressions KernelLake.Evaluation KernelLake.LogicalPlans
open KernelLake.PlanSemantics KernelLake.Library.Doubles KernelLake.Library.StableSort

/-- The places of values: the kind, then a number, a double's rank, a fraction or a text. -/
abbrev Place := ℕ ×ₗ ℤ ×ₗ (ℤ ×ₗ ℤ ×ₗ ℤ) ×ₗ ℚ ×ₗ String

def placeOf (kind : ℕ) (number : ℤ) (double : ℤ ×ₗ ℤ ×ₗ ℤ) (fraction : ℚ) (text : String) : Place :=
  toLex (kind, toLex (number, toLex (double, toLex (fraction, text))))

def sortPlace (value : Value) : Place :=
  match value with
  | .bool truth => placeOf (Value.kind value) (if truth then 1 else 0) (toLex (0, toLex (0, 0))) 0 ""
  | .int number => placeOf (Value.kind value) number (toLex (0, toLex (0, 0))) 0 ""
  | .double number => placeOf (Value.kind value) 0 (sortRank number) 0 ""
  | .string text => placeOf (Value.kind value) 0 (toLex (0, toLex (0, 0))) 0 text
  | .date days => placeOf (Value.kind value) days (toLex (0, toLex (0, 0))) 0 ""
  | .timestamp micros => placeOf (Value.kind value) micros (toLex (0, toLex (0, 0))) 0 ""
  | .decimal unscaled scale =>
    placeOf (Value.kind value) 0 (toLex (0, toLex (0, 0)))
      ((unscaled * tenTo (-scale) : ℤ) / (tenTo scale : ℤ)) ""
  | _ => placeOf (Value.kind value) 0 (toLex (0, toLex (0, 0))) 0 ""

theorem compare_placeOf (kind kind' : ℕ) (number number' : ℤ) (double double' : ℤ ×ₗ ℤ ×ₗ ℤ)
    (fraction fraction' : ℚ) (text text' : String) :
    compare (placeOf kind number double fraction text) (placeOf kind' number' double' fraction' text') =
      (compare kind kind').then ((compare number number').then ((compare double double').then
        ((compare fraction fraction').then (compare text text')))) := rfl

theorem compareFractions_eq (left right leftScale rightScale : ℤ) :
    compareFractions (left, tenTo leftScale) (right, tenTo rightScale) =
      compare ((left : ℚ) / (tenTo leftScale : ℤ)) ((right : ℚ) / (tenTo rightScale : ℤ)) := by
  have leftPositive : (0 : ℚ) < (tenTo leftScale : ℤ) := by
    exact_mod_cast Nat.pow_pos (by decide)
  have rightPositive : (0 : ℚ) < (tenTo rightScale : ℤ) := by
    exact_mod_cast Nat.pow_pos (by decide)
  unfold compareFractions
  rcases lt_trichotomy (left * (tenTo rightScale : ℤ)) (right * (tenTo leftScale : ℤ)) with
    below | same | above
  · rw [compare_lt_iff_lt.mpr below, eq_comm, compare_lt_iff_lt, div_lt_div_iff₀ leftPositive rightPositive]
    exact_mod_cast below
  · rw [compare_eq_iff_eq.mpr same, eq_comm, compare_eq_iff_eq, div_eq_div_iff leftPositive.ne' rightPositive.ne']
    exact_mod_cast same
  · rw [compare_gt_iff_gt.mpr above, eq_comm, compare_gt_iff_gt, div_lt_div_iff₀ rightPositive leftPositive]
    exact_mod_cast above

theorem compare_same {α : Type} [LinearOrder α] (a : α) : compare a a = .eq :=
  compare_eq_iff_eq.mpr rfl

theorem compare_truths (left right : Bool) :
    compare left right = compare (if left then (1 : ℤ) else 0) (if right then (1 : ℤ) else 0) := by
  cases left <;> cases right <;> rfl

theorem sortCompare_eq (left right : Value) :
    sortCompare left right = compare (sortPlace left) (sortPlace right) := by
  cases left <;> cases right <;>
    first
    | rfl
    | simp only [sortCompare, sortPlace, compare_placeOf, Value.kind, compare_same,
        Ordering.then_eq, Ordering.eq_then]
  case bool.bool left right => exact compare_truths left right
  case double.double left right => rfl
  case decimal.decimal => exact compareFractions_eq _ _ _ _

/-- Sorting by a list of keys puts a row first when its first differing key has the lower place. -/
theorem sortedBefore_cons (key : SortKey) (keys : List SortKey) (left right : Row) :
    sortedBefore (key :: keys) left right = true ↔
      (if key.ascending then sortPlace (eval key.expr left) < sortPlace (eval key.expr right)
        else sortPlace (eval key.expr right) < sortPlace (eval key.expr left)) ∨
      sortPlace (eval key.expr left) = sortPlace (eval key.expr right) ∧
        sortedBefore keys left right = true := by
  simp only [sortedBefore, sortCompare_eq]
  rcases lt_trichotomy (sortPlace (eval key.expr left)) (sortPlace (eval key.expr right)) with
    below | same | above
  · rw [compare_lt_iff_lt.mpr below]
    cases key.ascending <;> simp [below, below.ne, below.not_gt, Ordering.swap]
  · rw [compare_eq_iff_eq.mpr same, same]
    cases key.ascending <;> simp [Ordering.swap]
  · rw [compare_gt_iff_gt.mpr above]
    cases key.ascending <;> simp [above, above.ne', above.not_gt, Ordering.swap]

theorem sortedBefore_total (keys : List SortKey) (left right : Row) :
    sortedBefore keys left right = true ∨ sortedBefore keys right left = true := by
  induction keys with
  | nil => exact .inl rfl
  | cons key keys hypothesis =>
    simp only [sortedBefore_cons]
    rcases lt_trichotomy (sortPlace (eval key.expr left)) (sortPlace (eval key.expr right)) with
      below | same | above
    · cases key.ascending <;> simp [below]
    · rcases hypothesis with before | after
      · exact .inl (.inr ⟨same, before⟩)
      · exact .inr (.inr ⟨same.symm, after⟩)
    · cases key.ascending <;> simp [above]

theorem sortedBefore_trans {keys : List SortKey} {first second third : Row}
    (before : sortedBefore keys first second = true) (after : sortedBefore keys second third = true) :
    sortedBefore keys first third = true := by
  induction keys with
  | nil => rfl
  | cons key keys hypothesis =>
    simp only [sortedBefore_cons] at before after ⊢
    rcases before with strict | ⟨same, before⟩
    · rcases after with strict' | ⟨same', after⟩
      · left
        cases ascending : key.ascending <;>
          simp only [ascending, if_true, if_false, Bool.false_eq_true] at strict strict' ⊢
        · exact strict'.trans strict
        · exact strict.trans strict'
      · exact .inl (same' ▸ strict)
    · rcases after with strict' | ⟨same', after⟩
      · exact .inl (same ▸ strict')
      · exact .inr ⟨same.trans same', hypothesis before after⟩

/-- Selecting rows and sorting them commute. -/
theorem filter_sortRows (keys : List SortKey) (keep : Row → Bool) (input : List Row) :
    (sortRows keys input).filter keep = sortRows keys (input.filter keep) := by
  have : Std.Total (fun left right : Row => sortedBefore keys left right = true) :=
    ⟨fun left right => sortedBefore_total keys left right⟩
  have : IsTrans Row (fun left right => sortedBefore keys left right = true) :=
    ⟨fun _ _ _ => sortedBefore_trans⟩
  exact filter_insertionSort _ keep input

end KernelLake.SortProofs
