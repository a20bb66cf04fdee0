import KernelLake.Comparisons
import KernelLake.Simplification

/-!
Simplifying an expression changes neither its value on any row nor a second simplification.

One lemma for each folding rule compares it with the evaluator; `simplifyExpression_eval` collects
them over the tree. `Simplified` says that no rule applies anywhere in an expression.
-/

namespace KernelLake.SimplificationProofs

open KernelLake.Types KernelLake.Expressions KernelLake.Evaluation KernelLake.Library.Doubles
open KernelLake.Comparisons KernelLake.Simplification

/-! ## Truth tables -/

@[simp] theorem andValue_true_left (value : Value) : andValue (.bool true) value = value := by
  unfold andValue
  by_cases isFalse : value = .bool false
  · simp [isFalse]
  · simp [isFalse]

@[simp] theorem andValue_true_right (value : Value) : andValue value (.bool true) = value := by
  unfold andValue
  by_cases isFalse : value = .bool false
  · simp [isFalse]
  · by_cases isTrue : value = .bool true
    · simp [isTrue]
    · simp [isFalse, isTrue]

@[simp] theorem andValue_false_left (value : Value) : andValue (.bool false) value = .bool false := by
  simp [andValue]

@[simp] theorem andValue_false_right (value : Value) : andValue value (.bool false) = .bool false := by
  simp [andValue]

@[simp] theorem orValue_true_left (value : Value) : orValue (.bool true) value = .bool true := by
  simp [orValue]

@[simp] theorem orValue_true_right (value : Value) : orValue value (.bool true) = .bool true := by
  simp [orValue]

@[simp] theorem orValue_false_left (value : Value) : orValue (.bool false) value = value := by
  unfold orValue
  by_cases isTrue : value = .bool true
  · simp [isTrue]
  · simp [isTrue]

@[simp] theorem orValue_false_right (value : Value) : orValue value (.bool false) = value := by
  unfold orValue
  by_cases isTrue : value = .bool true
  · simp [isTrue]
  · by_cases isFalse : value = .bool false
    · simp [isFalse]
    · simp [isTrue, isFalse]

@[simp] theorem notValue_notValue (value : Value) : notValue (notValue value) = value := by
  cases value <;> simp [notValue]

/-- A conjunction is `TRUE` exactly when both sides are. -/
@[simp] theorem isTrue_andValue (left right : Value) :
    (andValue left right).isTrue = (left.isTrue && right.isTrue) := by
  by_cases leftTrue : left = .bool true
  · subst leftTrue
    simp [Value.isTrue]
  · by_cases rightTrue : right = .bool true
    · subst rightTrue
      simp [Value.isTrue]
    · have : andValue left right ≠ .bool true := by
        unfold andValue
        simp only [leftTrue, rightTrue, if_false]
        split
        · simp
        · split <;> simp
      simp [Value.isTrue, leftTrue, this]

/-! ## Folding agrees with evaluation -/

theorem toInt_inInt64 (value : Int64) : inInt64 value.toInt = true := by
  have lower := value.le_toInt
  have upper := value.toInt_lt
  unfold inInt64 int64Min int64Max
  rw [Bool.and_eq_true, decide_eq_true_eq, decide_eq_true_eq]
  omega

theorem checkedInt64_exact {value : Int} {result : Int64} (checked : checkedInt64 value = some result) :
    result.toInt = value := by
  unfold checkedInt64 at checked
  split at checked
  · rename_i fits
    obtain rfl := Option.some.inj checked
    unfold inInt64 int64Min int64Max at fits
    rw [Bool.and_eq_true, decide_eq_true_eq, decide_eq_true_eq] at fits
    exact Int64.toInt_ofInt_of_le (by omega) (by omega)
  · cases checked

/-- A folded integer operation is exact. -/
theorem foldArithmeticInt64_exact {op : BinaryOperator} {left right result : Int64}
    (folded : foldArithmeticInt64 op left right = some result) :
    integerArithmetic op left.toInt right.toInt = some result.toInt := by
  cases op with
  | add | subtract | multiply =>
    have exact_result := checkedInt64_exact folded
    simp [integerArithmetic, exact_result]
  | divide =>
    simp only [foldArithmeticInt64] at folded
    split at folded
    · cases folded
    · rename_i ordinary
      obtain rfl := Option.some.inj folded
      push Not at ordinary
      have nonzero : right.toInt ≠ 0 := fun zero => ordinary.1 (Int64.toInt_inj.mp zero)
      have quotient : (left / right).toInt = left.toInt.tdiv right.toInt := by
        by_cases minimal : left = Int64.minValue
        · exact Int64.toInt_div_of_ne_right left right (ordinary.2 minimal)
        · exact Int64.toInt_div_of_ne_left left right minimal
      simp [integerArithmetic, nonzero, quotient]
  | _ => cases folded

theorem foldIntegerComparison_exact {op : BinaryOperator} {left right : Int64} {result : Bool}
    (folded : foldIntegerComparison op left right = some result) :
    result = accepts op (compare left.toInt right.toInt) := by
  rw [Bool.eq_iff_iff, accepts_compare]
  cases op with
  | equal => simp [← Option.some.inj folded, Holds, Int64.toInt_inj]
  | notEqual => simp [← Option.some.inj folded, Holds, Int64.toInt_inj]
  | less => simp [← Option.some.inj folded, Holds, Int64.lt_iff_toInt_lt]
  | lessEqual => simp [← Option.some.inj folded, Holds, Int64.le_iff_toInt_le]
  | greater => simp [← Option.some.inj folded, Holds, Int64.lt_iff_toInt_lt]
  | greaterEqual => simp [← Option.some.inj folded, Holds, Int64.le_iff_toInt_le]
  | _ => cases folded

theorem foldNumericComparison_exact {op : BinaryOperator} {left right : Float} {result : Bool}
    (folded : foldNumericComparison op left right = some result) :
    Value.bool result = (Comparison.ofDoubles (compareDoubles left right)).truth op := by
  cases op with
  | equal | notEqual | less | lessEqual | greater | greaterEqual =>
    rw [← Option.some.inj folded]
    generalize compareDoubles left right = outcome
    cases outcome with
    | none => simp [Comparison.ofDoubles, Comparison.truth]
    | some ordering => cases ordering <;> simp [Comparison.ofDoubles, Comparison.truth, accepts]
  | _ => cases folded

theorem foldArithmetic_exact {op : BinaryOperator} {left right result : Float}
    (folded : foldArithmetic op left right = some result) :
    doubleArithmetic op left right = some result := by
  cases op with
  | add | subtract | multiply => exact folded
  | divide =>
    simp only [foldArithmetic] at folded
    split at folded
    · exact folded
    · cases folded
  | _ => cases folded

/-! ## Two literals -/

theorem literalValue_int64_payload (value : Int64) (type : DataType) :
    (literalValue (.int64 value) type).integerPayload = some value.toInt := by
  simp only [literalValue]
  split
  · rfl
  · split <;> rfl

theorem literalValue_doublePayload {value : LiteralStorage} {number : Float}
    (numeric : literalAsDouble value = some number) (type : DataType) :
    (literalValue value type).doublePayload = some number := by
  cases value with
  | int64 value =>
    obtain rfl := Option.some.inj numeric
    have payload := literalValue_int64_payload value type
    cases shape : literalValue (.int64 value) type <;> rw [shape] at payload <;>
      simp_all [Value.doublePayload, Value.integerPayload]
  | double value => exact numeric
  | _ => cases numeric

/-- On two present values a comparison or an arithmetic operation depends on their payloads only. -/
theorem binaryValue_integers {op : BinaryOperator} (plain : isLogical op = false) (type : DataType)
    {left right : Value} {a b : Int} (leftPayload : left.integerPayload = some a)
    (rightPayload : right.integerPayload = some b) :
    binaryValue op type left right =
      if isArithmetic op then
        match (integerArithmetic op a b).filter (integerResultFits type) with
        | some result => deliverInteger type result
        | none => .raised
      else .bool (accepts op (compare a b)) := by
  cases left <;> simp only [Value.integerPayload, reduceCtorEq, Option.some.injEq] at leftPayload <;>
    cases right <;> simp only [Value.integerPayload, reduceCtorEq, Option.some.injEq] at rightPayload <;>
    subst leftPayload <;> subst rightPayload <;> cases op <;>
    first
    | rfl
    | cases plain

theorem foldIntegers_eval {op : BinaryOperator} (plain : isLogical op = false) {left right : Int64}
    {type : DataType} {folded : Expression} (ran : foldIntegers op left right type = some folded)
    (group : Option (List Row)) (row : Row) (leftType rightType : DataType) :
    evalIn group row folded =
      binaryValue op type (literalValue (.int64 left) leftType) (literalValue (.int64 right) rightType) := by
  rw [binaryValue_integers plain type (literalValue_int64_payload left leftType)
    (literalValue_int64_payload right rightType)]
  unfold foldIntegers at ran
  split at ran
  · rename_i arithmetical
    obtain ⟨result, computed, rfl⟩ := Option.map_eq_some_iff.mp ran
    have fits : integerResultFits type result.toInt = true := by
      simp [integerResultFits, toInt_inInt64]
    simp only [arithmetical, if_true, foldArithmeticInt64_exact computed, Option.filter_some, fits,
      deliverInteger]
    split <;> simp [makeFloat64, makeInt64, evalIn, literalValue, int64Type]
  · rename_i comparing
    obtain ⟨result, computed, rfl⟩ := Option.map_eq_some_iff.mp ran
    simp [comparing, makeBool, evalIn, literalValue, foldIntegerComparison_exact computed]

theorem binaryValue_doubles {op : BinaryOperator} (plain : isLogical op = false) (type : DataType)
    {left right : Value} {a b : Float} (leftPayload : left.doublePayload = some a)
    (rightPayload : right.doublePayload = some b)
    (mixed : left.integerPayload = none ∨ right.integerPayload = none) :
    binaryValue op type left right =
      if isArithmetic op then
        match doubleArithmetic op a b with
        | some result => deliverDouble type result
        | none => .raised
      else (Comparison.ofDoubles (compareDoubles a b)).truth op := by
  cases left <;> simp only [Value.doublePayload, Value.integerPayload, Option.map_some, Option.map_none,
      reduceCtorEq, Option.some.injEq] at leftPayload <;>
    cases right <;> simp only [Value.doublePayload, Value.integerPayload, Option.map_some,
      Option.map_none, reduceCtorEq, Option.some.injEq] at rightPayload <;>
    subst leftPayload <;> subst rightPayload <;>
    simp only [Value.integerPayload, reduceCtorEq, or_self, or_false, or_true] at mixed <;> cases op <;>
    first
    | rfl
    | cases plain

theorem foldDoubles_eval {op : BinaryOperator} (plain : isLogical op = false)
    {left right : LiteralStorage} {a b : Float} (leftNumber : literalAsDouble left = some a)
    (rightNumber : literalAsDouble right = some b)
    (mixed : (∀ value, left ≠ .int64 value) ∨ ∀ value, right ≠ .int64 value)
    {type : DataType} {folded : Expression} (ran : foldDoubles op a b type = some folded)
    (group : Option (List Row)) (row : Row) (leftType rightType : DataType) :
    evalIn group row folded =
      binaryValue op type (literalValue left leftType) (literalValue right rightType) := by
  have noIntegers : (literalValue left leftType).integerPayload = none ∨
      (literalValue right rightType).integerPayload = none := by
    rcases mixed with absent | absent
    · left
      cases left with
      | int64 value => exact absurd rfl (absent value)
      | _ => rfl
    · right
      cases right with
      | int64 value => exact absurd rfl (absent value)
      | _ => rfl
  rw [binaryValue_doubles plain type (literalValue_doublePayload leftNumber leftType)
    (literalValue_doublePayload rightNumber rightType) noIntegers]
  unfold foldDoubles at ran
  split at ran
  · rename_i arithmetical
    obtain ⟨result, computed, delivered⟩ := Option.bind_eq_some_iff.mp ran
    simp only [arithmetical, if_true, foldArithmetic_exact computed, deliverDouble]
    split at delivered
    · rename_i floating
      obtain rfl := Option.some.inj delivered
      simp [floating, makeFloat64, evalIn, literalValue]
    · rename_i exactType
      obtain ⟨whole, cut, rfl⟩ := Option.map_eq_some_iff.mp delivered
      simp [exactType, cut, makeInt64, evalIn, literalValue, int64Type]
  · rename_i comparing
    obtain ⟨result, computed, rfl⟩ := Option.map_eq_some_iff.mp ran
    simp [comparing, makeBool, evalIn, literalValue, foldNumericComparison_exact computed]

theorem foldLiterals_eval {op : BinaryOperator} (plain : isLogical op = false)
    {left right : LiteralStorage} {type : DataType} {folded : Expression}
    (ran : foldLiterals op left right type = some folded)
    (group : Option (List Row)) (row : Row) (leftType rightType : DataType) :
    evalIn group row folded =
      binaryValue op type (literalValue left leftType) (literalValue right rightType) := by
  unfold foldLiterals at ran
  split at ran
  · exact foldIntegers_eval plain ran group row leftType rightType
  · rename_i notIntegers
    split at ran
    · rename_i a b leftNumber rightNumber
      refine foldDoubles_eval plain leftNumber rightNumber ?_ ran group row leftType rightType
      by_cases integer : ∃ value, left = .int64 value
      · obtain ⟨value, rfl⟩ := integer
        exact .inr (fun other same => notIntegers value other rfl same)
      · exact .inl (fun value same => integer ⟨value, same⟩)
    · cases ran

/-! ## One node -/

theorem simplifyUnary_eval (group : Option (List Row)) (row : Row) (op : UnaryOperator)
    (operand : Expression) (type : DataType) :
    evalIn group row (simplifyUnary op operand type) = unaryValue op (evalIn group row operand) := by
  unfold simplifyUnary
  split
  · simp [makeBool, evalIn, literalValue, unaryValue, notValue]
  · simp [evalIn, unaryValue]
  · simp [evalIn]

theorem simplifyLogical_eval (group : Option (List Row)) (row : Row) {op : BinaryOperator}
    (logical : isLogical op = true) (left right : Expression) (type : DataType) :
    evalIn group row (simplifyLogical op left right type) =
      binaryValue op type (evalIn group row left) (evalIn group row right) := by
  cases op <;> cases logical
  all_goals
    unfold simplifyLogical
    split
    · split <;> split <;> simp_all [binaryValue, makeBool, evalIn, literalValue]
    · split
      · split <;> split <;> simp_all [binaryValue, makeBool, evalIn, literalValue]
      · simp [evalIn]

theorem simplifyBinary_eval (group : Option (List Row)) (row : Row) (op : BinaryOperator)
    (left right : Expression) (type : DataType) :
    evalIn group row (simplifyBinary op left right type) =
      binaryValue op type (evalIn group row left) (evalIn group row right) := by
  unfold simplifyBinary
  split
  · rename_i logical
    exact simplifyLogical_eval group row logical left right type
  · rename_i plain
    split
    · rename_i leftValue leftType rightValue rightType
      cases ran : foldLiterals op leftValue rightValue type with
      | none => simp [evalIn]
      | some folded =>
        simpa [evalIn] using foldLiterals_eval (by simpa using plain) ran group row leftType rightType
    · simp [evalIn]

theorem simplifyBetween_eval (group : Option (List Row)) (row : Row) (value lower upper : Expression) :
    evalIn group row (simplifyBetween value lower upper) =
      evalIn group row (.between value lower upper) := by
  simp [simplifyBetween, simplifyBinary_eval, evalIn, binaryValue]

/-! ## Whole expressions -/

mutual

/-- Simplifying an expression preserves its value on every row and in every group. -/
theorem simplifyExpression_eval (group : Option (List Row)) (row : Row) :
    (expression : Expression) →
      evalIn group row (simplifyExpression expression) = evalIn group row expression
  | .column .. => rfl
  | .literal .. => rfl
  | .binary op left right type => by
    rw [simplifyExpression, simplifyBinary_eval, simplifyExpression_eval group row left,
      simplifyExpression_eval group row right, evalIn]
  | .unary op operand type => by
    rw [simplifyExpression, simplifyUnary_eval, simplifyExpression_eval group row operand, evalIn]
  | .cast operand type => by
    rw [simplifyExpression, evalIn, simplifyExpression_eval group row operand, evalIn]
  | .extract part operand type => by
    rw [simplifyExpression, evalIn, simplifyExpression_eval group row operand, evalIn]
  | .substring operand start length type => by
    rw [simplifyExpression, evalIn, simplifyExpression_eval group row operand, evalIn]
  | .between value lower upper => by
    rw [simplifyExpression, simplifyBetween_eval, evalIn, simplifyExpression_eval group row value,
      simplifyExpression_eval group row lower, simplifyExpression_eval group row upper, evalIn]
  | .like value pattern negated => by
    rw [simplifyExpression, evalIn, simplifyExpression_eval group row value, evalIn]
  | .caseWhen branches type => by
    rw [simplifyExpression, evalIn, simplifyBranches_eval group row branches, evalIn]
  | .aggregate function argument type => by
    cases group with
    | none => simp only [simplifyExpression, evalIn]
    | some members =>
      simp only [simplifyExpression, evalIn]
      congr 1
      exact List.map_congr_left (fun member _ => simplifyExpression_eval none member argument)
  | .countStar type => by rw [simplifyExpression]

theorem simplifyBranches_eval (group : Option (List Row)) (row : Row) :
    (branches : CaseBranches) →
      evalBranchesIn group row (simplifyBranches branches) = evalBranchesIn group row branches
  | .done => rfl
  | .otherwise result => by
    rw [simplifyBranches, evalBranchesIn, simplifyExpression_eval group row result, evalBranchesIn]
  | .when condition result rest => by
    rw [simplifyBranches, evalBranchesIn, simplifyExpression_eval group row condition,
      simplifyExpression_eval group row result, simplifyBranches_eval group row rest, evalBranchesIn]

end

/-! ## Normal forms -/

mutual

/-- No simplification rule applies anywhere in an expression. -/
def Simplified : Expression → Prop
  | .column .. => True
  | .literal .. => True
  | .binary op left right type =>
    Simplified left ∧ Simplified right ∧ simplifyBinary op left right type = .binary op left right type
  | .unary op operand type =>
    Simplified operand ∧ simplifyUnary op operand type = .unary op operand type
  | .cast operand _ => Simplified operand
  | .extract _ operand _ => Simplified operand
  | .substring operand _ _ _ => Simplified operand
  | .between .. => False
  | .like value _ _ => Simplified value
  | .caseWhen branches _ => SimplifiedBranches branches
  | .aggregate _ argument _ => Simplified argument
  | .countStar _ => True

def SimplifiedBranches : CaseBranches → Prop
  | .done => True
  | .otherwise result => Simplified result
  | .when condition result rest =>
    Simplified condition ∧ Simplified result ∧ SimplifiedBranches rest

end

/-- What one unary node becomes. -/
theorem simplifyUnary_cases (op : UnaryOperator) (operand : Expression) (type : DataType) :
    (∃ value, simplifyUnary op operand type = makeBool value) ∨
    (∃ inner innerType, operand = .unary .not inner innerType ∧
      simplifyUnary op operand type = inner) ∨
    simplifyUnary op operand type = .unary op operand type := by
  unfold simplifyUnary
  split
  · exact .inl ⟨_, rfl⟩
  · exact .inr (.inl ⟨_, _, rfl, rfl⟩)
  · exact .inr (.inr rfl)

theorem foldLiterals_literal {op : BinaryOperator} {left right : LiteralStorage} {type : DataType}
    {folded : Expression} (ran : foldLiterals op left right type = some folded) :
    ∃ value literalType, folded = .literal value literalType := by
  unfold foldLiterals foldIntegers foldDoubles at ran
  split at ran
  · split at ran
    · obtain ⟨result, _, rfl⟩ := Option.map_eq_some_iff.mp ran
      split <;> exact ⟨_, _, rfl⟩
    · obtain ⟨result, _, rfl⟩ := Option.map_eq_some_iff.mp ran
      exact ⟨_, _, rfl⟩
  · split at ran
    · split at ran
      · obtain ⟨result, _, delivered⟩ := Option.bind_eq_some_iff.mp ran
        split at delivered
        · exact ⟨_, _, (Option.some.inj delivered).symm⟩
        · obtain ⟨whole, _, rfl⟩ := Option.map_eq_some_iff.mp delivered
          exact ⟨_, _, rfl⟩
      · obtain ⟨result, _, rfl⟩ := Option.map_eq_some_iff.mp ran
        exact ⟨_, _, rfl⟩
    · cases ran

/-- What one binary node becomes: an operand, a literal, or the node itself. -/
theorem simplifyBinary_cases (op : BinaryOperator) (left right : Expression) (type : DataType) :
    simplifyBinary op left right type = left ∨ simplifyBinary op left right type = right ∨
    (∃ value literalType, simplifyBinary op left right type = .literal value literalType) ∨
    simplifyBinary op left right type = .binary op left right type := by
  unfold simplifyBinary
  split
  · unfold simplifyLogical makeBool
    split
    · split <;> split <;> simp
    · split
      · split <;> split <;> simp
      · simp
  · split
    · rename_i leftValue leftType rightValue rightType
      cases ran : foldLiterals op leftValue rightValue type with
      | none => simp
      | some folded =>
        obtain ⟨value, literalType, rfl⟩ := foldLiterals_literal ran
        simp
    · simp

theorem simplifyUnary_simplified {op : UnaryOperator} {operand : Expression} (type : DataType)
    (simple : Simplified operand) : Simplified (simplifyUnary op operand type) := by
  rcases simplifyUnary_cases op operand type with ⟨value, same⟩ | ⟨inner, innerType, shape, same⟩ | same
  · rw [same]
    trivial
  · rw [same]
    rw [shape] at simple
    exact simple.1
  · rw [same]
    exact ⟨simple, same⟩

theorem simplifyBinary_simplified {op : BinaryOperator} {left right : Expression} (type : DataType)
    (leftSimple : Simplified left) (rightSimple : Simplified right) :
    Simplified (simplifyBinary op left right type) := by
  rcases simplifyBinary_cases op left right type with same | same | ⟨value, literalType, same⟩ | same
  · rwa [same]
  · rwa [same]
  · rw [same]
    trivial
  · rw [same]
    exact ⟨leftSimple, rightSimple, same⟩

mutual

theorem simplifyExpression_simplified : (expression : Expression) →
    Simplified (simplifyExpression expression)
  | .column .. => trivial
  | .literal .. => trivial
  | .binary _ left right type =>
    simplifyBinary_simplified type (simplifyExpression_simplified left)
      (simplifyExpression_simplified right)
  | .unary _ operand type => simplifyUnary_simplified type (simplifyExpression_simplified operand)
  | .cast operand _ => simplifyExpression_simplified operand
  | .extract _ operand _ => simplifyExpression_simplified operand
  | .substring operand _ _ _ => simplifyExpression_simplified operand
  | .between value lower upper => by
    rw [simplifyExpression, simplifyBetween]
    exact simplifyBinary_simplified _
      (simplifyBinary_simplified _ (simplifyExpression_simplified value)
        (simplifyExpression_simplified lower))
      (simplifyBinary_simplified _ (simplifyExpression_simplified value)
        (simplifyExpression_simplified upper))
  | .like value _ _ => simplifyExpression_simplified value
  | .caseWhen branches _ => simplifyBranches_simplified branches
  | .aggregate _ argument _ => simplifyExpression_simplified argument
  | .countStar _ => trivial

theorem simplifyBranches_simplified : (branches : CaseBranches) →
    SimplifiedBranches (simplifyBranches branches)
  | .done => trivial
  | .otherwise result => simplifyExpression_simplified result
  | .when condition result rest =>
    ⟨simplifyExpression_simplified condition, simplifyExpression_simplified result,
      simplifyBranches_simplified rest⟩

end

mutual

theorem simplifyExpression_of_simplified : (expression : Expression) →
    Simplified expression → simplifyExpression expression = expression
  | .column .., _ => rfl
  | .literal .., _ => rfl
  | .binary _ left right _, simple => by
    rw [simplifyExpression, simplifyExpression_of_simplified left simple.1,
      simplifyExpression_of_simplified right simple.2.1, simple.2.2]
  | .unary _ operand _, simple => by
    rw [simplifyExpression, simplifyExpression_of_simplified operand simple.1, simple.2]
  | .cast operand _, simple => by
    rw [simplifyExpression, simplifyExpression_of_simplified operand simple]
  | .extract _ operand _, simple => by
    rw [simplifyExpression, simplifyExpression_of_simplified operand simple]
  | .substring operand _ _ _, simple => by
    rw [simplifyExpression, simplifyExpression_of_simplified operand simple]
  | .like value _ _, simple => by
    rw [simplifyExpression, simplifyExpression_of_simplified value simple]
  | .caseWhen branches _, simple => by
    rw [simplifyExpression, simplifyBranches_of_simplified branches simple]
  | .aggregate _ argument _, simple => by
    rw [simplifyExpression, simplifyExpression_of_simplified argument simple]
  | .countStar _, _ => rfl

theorem simplifyBranches_of_simplified : (branches : CaseBranches) →
    SimplifiedBranches branches → simplifyBranches branches = branches
  | .done, _ => rfl
  | .otherwise result, simple => by
    rw [simplifyBranches, simplifyExpression_of_simplified result simple]
  | .when condition result rest, simple => by
    rw [simplifyBranches, simplifyExpression_of_simplified condition simple.1,
      simplifyExpression_of_simplified result simple.2.1,
      simplifyBranches_of_simplified rest simple.2.2]

end

/-- Simplifying twice is simplifying once. -/
theorem simplifyExpression_idempotent (expression : Expression) :
    simplifyExpression (simplifyExpression expression) = simplifyExpression expression :=
  simplifyExpression_of_simplified _ (simplifyExpression_simplified expression)

/-- The source's rule for `BETWEEN`: simplify the operands, build the conjunction, simplify that. -/
theorem simplifyExpression_between (value lower upper : Expression) :
    simplifyExpression (.between value lower upper) =
      simplifyExpression (betweenConjunction (simplifyExpression value) (simplifyExpression lower)
        (simplifyExpression upper)) := by
  simp only [betweenConjunction, simplifyExpression, simplifyExpression_idempotent]
  rfl

end KernelLake.SimplificationProofs
