import KernelLake.Optimizer
import KernelLake.PlanSemantics
import KernelLake.SimplificationProofs

/-!
How an expression's value depends on the columns it refers to.

An expression reads only the columns `collectColumns` lists. Moving it to a narrower row is therefore
sound as soon as the listed columns keep their values: below the left input of a join nothing
changes, below the right input every index drops by the width of the left.
-/

namespace KernelLake.ColumnProofs

open KernelLake.Types KernelLake.Expressions KernelLake.Evaluation KernelLake.LogicalPlans
open KernelLake.Optimizer KernelLake.PlanSemantics

/-- The value of one column of a row. -/
abbrev columnValue (row : Row) (index : Nat) : Value := row.getD index .raised

mutual

/-- An expression has equal values on two rows that agree on its columns. -/
theorem evalIn_congr (group : Option (List Row)) {left right : Row} :
    (expression : Expression) →
      (∀ index ∈ collectColumns expression, columnValue left index = columnValue right index) →
      evalIn group left expression = evalIn group right expression
  | .column _ columnIndex _, agree => agree columnIndex (by simp [collectColumns])
  | .literal .., _ => rfl
  | .binary _ first second _, agree => by
    simp only [collectColumns, List.mem_append] at agree
    rw [evalIn, evalIn, evalIn_congr group first (fun index member => agree index (.inl member)),
      evalIn_congr group second (fun index member => agree index (.inr member))]
  | .unary _ operand _, agree => by
    rw [evalIn, evalIn, evalIn_congr group operand agree]
  | .cast operand _, agree => by
    rw [evalIn, evalIn, evalIn_congr group operand agree]
  | .extract _ operand _, agree => by
    rw [evalIn, evalIn, evalIn_congr group operand agree]
  | .substring operand _ _ _, agree => by
    rw [evalIn, evalIn, evalIn_congr group operand agree]
  | .between value lower upper, agree => by
    simp only [collectColumns, List.mem_append] at agree
    rw [evalIn, evalIn, evalIn_congr group value (fun index member => agree index (.inl (.inl member))),
      evalIn_congr group lower (fun index member => agree index (.inl (.inr member))),
      evalIn_congr group upper (fun index member => agree index (.inr member))]
  | .like value _ _, agree => by
    rw [evalIn, evalIn, evalIn_congr group value agree]
  | .caseWhen branches _, agree => by
    rw [evalIn, evalIn, evalBranchesIn_congr group branches agree]
  | .aggregate .., _ => by cases group <;> simp only [evalIn]
  | .countStar _, _ => by cases group <;> simp only [evalIn]

theorem evalBranchesIn_congr (group : Option (List Row)) {left right : Row} :
    (branches : CaseBranches) →
      (∀ index ∈ collectBranchColumns branches, columnValue left index = columnValue right index) →
      evalBranchesIn group left branches = evalBranchesIn group right branches
  | .done, _ => rfl
  | .otherwise result, agree => by
    rw [evalBranchesIn, evalBranchesIn, evalIn_congr group result agree]
  | .when condition result rest, agree => by
    simp only [collectBranchColumns, List.mem_append] at agree
    rw [evalBranchesIn, evalBranchesIn,
      evalIn_congr group condition (fun index member => agree index (.inl (.inl member))),
      evalIn_congr group result (fun index member => agree index (.inl (.inr member))),
      evalBranchesIn_congr group rest (fun index member => agree index (.inr member))]

end

mutual

/-- Shifting an expression's columns down undoes a prefix of the row. -/
theorem evalIn_shiftColumns (group : Option (List Row)) (before row : Row) :
    (expression : Expression) →
      (∀ index ∈ collectColumns expression, before.length ≤ index) →
      evalIn group row (shiftColumns before.length expression) =
        evalIn group (before ++ row) expression
  | .column _ columnIndex _, beyond => by
    have reached := beyond columnIndex (by simp [collectColumns])
    simp only [shiftColumns, evalIn, List.getD_eq_getElem?_getD]
    rw [List.getElem?_append_right reached]
  | .literal .., _ => rfl
  | .binary _ first second _, beyond => by
    simp only [collectColumns, List.mem_append] at beyond
    rw [shiftColumns, evalIn, evalIn,
      evalIn_shiftColumns group before row first (fun index member => beyond index (.inl member)),
      evalIn_shiftColumns group before row second (fun index member => beyond index (.inr member))]
  | .unary _ operand _, beyond => by
    rw [shiftColumns, evalIn, evalIn, evalIn_shiftColumns group before row operand beyond]
  | .cast operand _, beyond => by
    rw [shiftColumns, evalIn, evalIn, evalIn_shiftColumns group before row operand beyond]
  | .extract _ operand _, beyond => by
    rw [shiftColumns, evalIn, evalIn, evalIn_shiftColumns group before row operand beyond]
  | .substring operand _ _ _, beyond => by
    rw [shiftColumns, evalIn, evalIn, evalIn_shiftColumns group before row operand beyond]
  | .between value lower upper, beyond => by
    simp only [collectColumns, List.mem_append] at beyond
    rw [shiftColumns, evalIn, evalIn,
      evalIn_shiftColumns group before row value (fun index member => beyond index (.inl (.inl member))),
      evalIn_shiftColumns group before row lower (fun index member => beyond index (.inl (.inr member))),
      evalIn_shiftColumns group before row upper (fun index member => beyond index (.inr member))]
  | .like value _ _, beyond => by
    rw [shiftColumns, evalIn, evalIn, evalIn_shiftColumns group before row value beyond]
  | .caseWhen branches _, beyond => by
    rw [shiftColumns, evalIn, evalIn, evalBranchesIn_shiftColumns group before row branches beyond]
  | .aggregate .., _ => by cases group <;> simp only [shiftColumns, evalIn]
  | .countStar _, _ => by cases group <;> simp only [shiftColumns, evalIn]

theorem evalBranchesIn_shiftColumns (group : Option (List Row)) (before row : Row) :
    (branches : CaseBranches) →
      (∀ index ∈ collectBranchColumns branches, before.length ≤ index) →
      evalBranchesIn group row (shiftBranchColumns before.length branches) =
        evalBranchesIn group (before ++ row) branches
  | .done, _ => rfl
  | .otherwise result, beyond => by
    rw [shiftBranchColumns, evalBranchesIn, evalBranchesIn,
      evalIn_shiftColumns group before row result beyond]
  | .when condition result rest, beyond => by
    simp only [collectBranchColumns, List.mem_append] at beyond
    rw [shiftBranchColumns, evalBranchesIn, evalBranchesIn,
      evalIn_shiftColumns group before row condition
        (fun index member => beyond index (.inl (.inl member))),
      evalIn_shiftColumns group before row result
        (fun index member => beyond index (.inl (.inr member))),
      evalBranchesIn_shiftColumns group before row rest
        (fun index member => beyond index (.inr member))]

end

/-- A conjunct over the left columns of a join reads only the left row. -/
theorem eval_of_onlyLeft {conjunct : Expression} {left : Row}
    (local_left : onlyLeft left.length conjunct = true) (right : Row) :
    eval conjunct (left ++ right) = eval conjunct left := by
  simp only [onlyLeft, Bool.and_eq_true, List.all_eq_true, decide_eq_true_eq] at local_left
  refine evalIn_congr none conjunct (fun index member => ?_)
  have within := local_left.2 index member
  simp only [columnValue, List.getD_eq_getElem?_getD]
  rw [List.getElem?_append_left within]

/-- A conjunct over the right columns of a join reads, shifted, only the right row. -/
theorem eval_of_onlyRight {conjunct : Expression} {left : Row}
    (local_right : onlyRight left.length conjunct = true) (right : Row) :
    eval conjunct (left ++ right) = eval (shiftColumns left.length conjunct) right := by
  simp only [onlyRight, Bool.and_eq_true, List.all_eq_true, decide_eq_true_eq] at local_right
  exact (evalIn_shiftColumns none left right conjunct local_right.2).symm

/-! ## Conjunctions -/

/-- Whether all predicates of a list are `TRUE` on a row. -/
def passesAll (predicates : List Expression) (row : Row) : Bool :=
  predicates.all (fun predicate => (eval predicate row).isTrue)

@[simp] theorem filter_passesAll_nil (input : List Row) : input.filter (passesAll []) = input :=
  List.filter_eq_self.mpr (fun _ _ => rfl)

theorem passesAll_congr {predicates : List Expression} (change : Expression → Expression)
    {left right : Row}
    (same : ∀ predicate ∈ predicates, eval predicate left = eval (change predicate) right) :
    passesAll predicates left = passesAll (predicates.map change) right := by
  rw [Bool.eq_iff_iff]
  simp only [passesAll, List.all_map, List.all_eq_true, Function.comp_apply]
  exact forall₂_congr (fun predicate member => by rw [same predicate member])

theorem isTrue_conjunction (first : Expression) (rest : List Expression) (row : Row) :
    (eval (conjunction first rest) row).isTrue = passesAll (first :: rest) row := by
  unfold conjunction
  induction rest generalizing first with
  | nil => simp [passesAll]
  | cons next rest hypothesis =>
    rw [List.foldl_cons, hypothesis]
    simp [passesAll, evalIn, binaryValue, Bool.and_assoc]

theorem passesAll_collectConjuncts (predicate : Expression) (row : Row) :
    passesAll (collectConjuncts predicate) row = (eval predicate row).isTrue := by
  fun_induction collectConjuncts predicate with
  | case1 left right type leftIH rightIH =>
    simp only [passesAll, List.all_append] at leftIH rightIH ⊢
    rw [leftIH, rightIH]
    simp [evalIn, binaryValue]
  | case2 predicate => simp [passesAll]

/-- A filter on a list of predicates keeps the rows that pass all of them. -/
theorem rows_filterAll (tables : Tables) (child : LogicalPlan) (predicates : List Expression) :
    rows tables (filterAll child predicates) =
      (rows tables child).filter (passesAll predicates) := by
  cases predicates with
  | nil => simp [filterAll]
  | cons first rest =>
    simp only [filterAll, rows, filterRows]
    exact List.filter_congr (fun row _ => isTrue_conjunction first rest row)

theorem width_filterAll (child : LogicalPlan) (predicates : List Expression) :
    (filterAll child predicates).width = child.width := by
  cases predicates <;> rfl

end KernelLake.ColumnProofs
