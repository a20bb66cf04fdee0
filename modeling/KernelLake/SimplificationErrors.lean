import KernelLake.EvaluationTypes
import KernelLake.SimplificationProofs

/-!
Simplifying an expression introduces no error and folds none away.

The value of a simplified expression is that of the original on every row. Whether evaluation reports an
error depends on all subexpressions, and a `BETWEEN` becomes two comparisons that are evaluated on their
own; between values of one scalar type neither can fail. Literals whose arithmetic has no 64-bit result
stay as they are.
-/

namespace KernelLake.SimplificationErrors

open KernelLake.Types KernelLake.Expressions KernelLake.Evaluation KernelLake.Library.Doubles
open KernelLake.BoundTypes KernelLake.BindingProofs KernelLake.EvaluationTypes
open KernelLake.Simplification KernelLake.SimplificationProofs

/-! ## Errors -/

mutual

/-- An expression that reports no error does not evaluate to one. -/
theorem eval_of_not_raises (row : Row) : (expression : Expression) → raises row expression = false →
    eval expression row ≠ .raised
  | .column .., quiet => of_decide_eq_false quiet
  | .literal value type, _ => by
    cases value with
    | int64 value =>
      simp only [evalIn, literalValue]
      split
      · exact nofun
      · split <;> exact nofun
    | _ => exact nofun
  | .binary .., quiet => of_decide_eq_false (Bool.or_eq_false_iff.mp quiet).2
  | .unary .., quiet => of_decide_eq_false (Bool.or_eq_false_iff.mp quiet).2
  | .cast .., quiet => of_decide_eq_false (Bool.or_eq_false_iff.mp quiet).2
  | .extract .., quiet => of_decide_eq_false (Bool.or_eq_false_iff.mp quiet).2
  | .substring .., quiet => of_decide_eq_false (Bool.or_eq_false_iff.mp quiet).2
  | .between .., quiet => of_decide_eq_false (Bool.or_eq_false_iff.mp quiet).2
  | .like .., quiet => of_decide_eq_false (Bool.or_eq_false_iff.mp quiet).2
  | .caseWhen branches _, quiet => evalBranches_of_not_raise row branches quiet
  | .aggregate .., quiet => by cases quiet
  | .countStar _, quiet => by cases quiet

theorem evalBranches_of_not_raise (row : Row) : (branches : CaseBranches) →
    branchesRaise row branches = false → evalBranches branches row ≠ .raised
  | .done, _ => nofun
  | .otherwise result, quiet => eval_of_not_raises row result quiet
  | .when condition result rest, quiet => by
    obtain ⟨firstQuiet, restQuiet⟩ := Bool.or_eq_false_iff.mp quiet
    obtain ⟨conditionQuiet, resultQuiet⟩ := Bool.or_eq_false_iff.mp firstQuiet
    have conditionValue := eval_of_not_raises row condition conditionQuiet
    rw [evalBranches, evalBranchesIn]
    split
    · exact eval_of_not_raises row result resultQuiet
    · rename_i isRaised
      exact absurd isRaised conditionValue
    · exact evalBranches_of_not_raise row rest restQuiet

end

/-- What one binary node becomes reports an error only if an operand or the operation does. -/
theorem raises_simplifyBinary {row : Row} {op : BinaryOperator} {left right : Expression} {type : DataType}
    (leftQuiet : raises row left = false) (rightQuiet : raises row right = false)
    (defined : binaryValue op type (eval left row) (eval right row) ≠ .raised) :
    raises row (simplifyBinary op left right type) = false := by
  rcases simplifyBinary_cases op left right type with same | same | ⟨value, literalType, same⟩ | same
  · rwa [same]
  · rwa [same]
  · rw [same]
    rfl
  · rw [same, raises, leftQuiet, rightQuiet]
    exact decide_eq_false defined

theorem raises_simplifyUnary {row : Row} {op : UnaryOperator} {operand : Expression} {type : DataType}
    (quiet : raises row operand = false) (defined : unaryValue op (eval operand row) ≠ .raised) :
    raises row (simplifyUnary op operand type) = false := by
  rcases simplifyUnary_cases op operand type with ⟨value, same⟩ | ⟨inner, innerType, shape, same⟩ | same
  · rw [same]
    rfl
  · rw [same]
    rw [shape] at quiet
    exact (Bool.or_eq_false_iff.mp quiet).1
  · rw [same, raises, quiet]
    exact decide_eq_false defined

/-! ## Comparisons of scalars -/

/-- Two present values of one scalar type can be compared. -/
theorem compareValues_of_scalars {id : TypeId} {left right : Value} (leftInhabits : inhabits id left = true)
    (rightInhabits : inhabits id right = true) (leftValue : left ≠ .raised) (rightValue : right ≠ .raised) :
    compareValues left right ≠ .failed := by
  cases left with
  | raised => exact absurd rfl leftValue
  | null =>
    cases right with
    | raised => exact absurd rfl rightValue
    | _ => exact nofun
  | bool a =>
    have isBoolean : id = .boolean := of_decide_eq_true leftInhabits
    subst isBoolean
    cases right with
    | raised => exact absurd rfl rightValue
    | int _ => cases rightInhabits
    | string _ => cases rightInhabits
    | null | bool _ => exact nofun
    | _ => cases rightInhabits
  | string a =>
    have isString : id = .string := of_decide_eq_true leftInhabits
    subst isString
    cases right with
    | raised => exact absurd rfl rightValue
    | int _ => cases rightInhabits
    | bool _ => cases rightInhabits
    | null | string _ => exact nofun
    | _ => cases rightInhabits
  | int a =>
    rcases int_of_inhabits leftInhabits rightInhabits with rfl | rfl | ⟨b, rfl⟩
    · exact nofun
    · exact absurd rfl rightValue
    · exact nofun
  | _ => cases leftInhabits

theorem truth_of_not_failed (op : BinaryOperator) {comparison : Comparison}
    (compared : comparison ≠ .failed) : comparison.truth op ≠ .raised := by
  cases comparison with
  | failed => exact absurd rfl compared
  | _ => exact nofun

theorem andValue_of_not_raised {left right : Value} (leftValue : left ≠ .raised)
    (rightValue : right ≠ .raised) : andValue left right ≠ .raised := by
  unfold andValue
  split
  · exact nofun
  · split
    · exact rightValue
    · split
      · exact leftValue
      · split
        · rename_i raised
          rcases raised with isRaised | isRaised
          · exact absurd isRaised leftValue
          · exact absurd isRaised rightValue
        · exact nofun

/-! ## Whole expressions -/

theorem eval_simplifyExpression (expression : Expression) (row : Row) :
    eval (simplifyExpression expression) row = eval expression row :=
  simplifyExpression_eval none row expression

mutual

/-- Every `BETWEEN` in an expression compares integers, truth values or texts. -/
def ComparesScalars : Expression → Prop
  | .column .. => True
  | .literal .. => True
  | .binary _ left right _ => ComparesScalars left ∧ ComparesScalars right
  | .unary _ operand _ => ComparesScalars operand
  | .cast operand _ => ComparesScalars operand
  | .extract _ operand _ => ComparesScalars operand
  | .substring operand _ _ _ => ComparesScalars operand
  | .between value lower upper =>
    isScalar value.resultType.id = true ∧ ComparesScalars value ∧ ComparesScalars lower ∧
      ComparesScalars upper
  | .like value _ _ => ComparesScalars value
  | .caseWhen branches _ => BranchesCompareScalars branches
  | .aggregate _ argument _ => ComparesScalars argument
  | .countStar _ => True

def BranchesCompareScalars : CaseBranches → Prop
  | .done => True
  | .otherwise result => ComparesScalars result
  | .when condition result rest =>
    ComparesScalars condition ∧ ComparesScalars result ∧ BranchesCompareScalars rest

end

mutual

/-- An expression that reports no error on a row reports none after simplification. -/
theorem raises_simplifyExpression (row : Row) : (expression : Expression) → WellTyped expression →
    ComparesScalars expression → Supply [row] (columnUses expression) → raises row expression = false →
    raises row (simplifyExpression expression) = false
  | .column .., _, _, _, quiet => quiet
  | .literal .., _, _, _, _ => rfl
  | .binary op left right type, ⟨_, _, leftTyped, rightTyped⟩, ⟨leftScalars, rightScalars⟩, supply,
      quiet => by
    obtain ⟨leftSupply, rightSupply⟩ := supply_append.mp supply
    obtain ⟨operandsQuiet, defined⟩ := Bool.or_eq_false_iff.mp quiet
    obtain ⟨leftQuiet, rightQuiet⟩ := Bool.or_eq_false_iff.mp operandsQuiet
    apply raises_simplifyBinary
    · exact raises_simplifyExpression row left leftTyped leftScalars leftSupply leftQuiet
    · exact raises_simplifyExpression row right rightTyped rightScalars rightSupply rightQuiet
    · rw [eval_simplifyExpression, eval_simplifyExpression]
      exact of_decide_eq_false defined
  | .unary op operand type, ⟨_, _, typed⟩, scalars, supply, quiet => by
    obtain ⟨operandQuiet, defined⟩ := Bool.or_eq_false_iff.mp quiet
    apply raises_simplifyUnary
    · exact raises_simplifyExpression row operand typed scalars supply operandQuiet
    · rw [eval_simplifyExpression]
      exact of_decide_eq_false defined
  | .cast operand type, typed, scalars, supply, quiet => by
    obtain ⟨operandQuiet, defined⟩ := Bool.or_eq_false_iff.mp quiet
    rw [simplifyExpression, raises,
      raises_simplifyExpression row operand typed scalars supply operandQuiet, Bool.false_or]
    rwa [← simplifyExpression, eval_simplifyExpression]
  | .extract part operand type, ⟨_, _, typed⟩, scalars, supply, quiet => by
    obtain ⟨operandQuiet, defined⟩ := Bool.or_eq_false_iff.mp quiet
    rw [simplifyExpression, raises,
      raises_simplifyExpression row operand typed scalars supply operandQuiet, Bool.false_or]
    rwa [← simplifyExpression, eval_simplifyExpression]
  | .substring operand start length type, ⟨_, _, typed⟩, scalars, supply, quiet => by
    obtain ⟨operandQuiet, defined⟩ := Bool.or_eq_false_iff.mp quiet
    rw [simplifyExpression, raises,
      raises_simplifyExpression row operand typed scalars supply operandQuiet, Bool.false_or]
    rwa [← simplifyExpression, eval_simplifyExpression]
  | .between value lower upper, ⟨sameLower, sameUpper, valueTyped, lowerTyped, upperTyped⟩,
      ⟨scalar, valueScalars, lowerScalars, upperScalars⟩, supply, quiet => by
    obtain ⟨innerSupply, upperSupply⟩ := supply_append.mp supply
    obtain ⟨valueSupply, lowerSupply⟩ := supply_append.mp innerSupply
    obtain ⟨operandsQuiet, _⟩ := Bool.or_eq_false_iff.mp quiet
    obtain ⟨innerQuiet, upperQuiet⟩ := Bool.or_eq_false_iff.mp operandsQuiet
    obtain ⟨valueQuiet, lowerQuiet⟩ := Bool.or_eq_false_iff.mp innerQuiet
    have lowerId := (sameKind_iff.mp sameLower).1
    have upperId := (sameKind_iff.mp sameUpper).1
    have valueInhabits := inhabits_evalIn none row value valueTyped valueSupply scalar
    have lowerInhabits := inhabits_evalIn none row lower lowerTyped lowerSupply (lowerId ▸ scalar)
    have upperInhabits := inhabits_evalIn none row upper upperTyped upperSupply (upperId ▸ scalar)
    rw [← lowerId] at lowerInhabits
    rw [← upperId] at upperInhabits
    have valueDefined := eval_of_not_raises row value valueQuiet
    have aboveLower := truth_of_not_failed .greaterEqual (compareValues_of_scalars valueInhabits
      lowerInhabits valueDefined (eval_of_not_raises row lower lowerQuiet))
    have belowUpper := truth_of_not_failed .lessEqual (compareValues_of_scalars valueInhabits
      upperInhabits valueDefined (eval_of_not_raises row upper upperQuiet))
    have value' := raises_simplifyExpression row value valueTyped valueScalars valueSupply valueQuiet
    rw [simplifyExpression, simplifyBetween]
    apply raises_simplifyBinary
    · apply raises_simplifyBinary value'
      · exact raises_simplifyExpression row lower lowerTyped lowerScalars lowerSupply lowerQuiet
      · rw [eval_simplifyExpression, eval_simplifyExpression]
        exact aboveLower
    · apply raises_simplifyBinary value'
      · exact raises_simplifyExpression row upper upperTyped upperScalars upperSupply upperQuiet
      · rw [eval_simplifyExpression, eval_simplifyExpression]
        exact belowUpper
    · rw [eval, simplifyBinary_eval, eval, simplifyBinary_eval, simplifyExpression_eval,
        simplifyExpression_eval, simplifyExpression_eval]
      exact andValue_of_not_raised aboveLower belowUpper
  | .like value pattern negated, ⟨_, typed⟩, scalars, supply, quiet => by
    obtain ⟨valueQuiet, defined⟩ := Bool.or_eq_false_iff.mp quiet
    rw [simplifyExpression, raises,
      raises_simplifyExpression row value typed scalars supply valueQuiet, Bool.false_or]
    rwa [← simplifyExpression, eval_simplifyExpression]
  | .caseWhen branches type, ⟨_, typed⟩, scalars, supply, quiet =>
    branchesRaise_simplifyBranches row branches typed scalars supply quiet
  | .aggregate .., _, _, _, quiet => by cases quiet
  | .countStar _, _, _, _, quiet => by cases quiet

theorem branchesRaise_simplifyBranches (row : Row) : (branches : CaseBranches) →
    BranchesWellTyped branches → BranchesCompareScalars branches → Supply [row] (branchUses branches) →
    branchesRaise row branches = false → branchesRaise row (simplifyBranches branches) = false
  | .done, _, _, _, _ => rfl
  | .otherwise result, typed, scalars, supply, quiet =>
    raises_simplifyExpression row result typed scalars supply quiet
  | .when condition result rest, ⟨_, conditionTyped, resultTyped, restTyped⟩,
      ⟨conditionScalars, resultScalars, restScalars⟩, supply, quiet => by
    obtain ⟨firstSupply, restSupply⟩ := supply_append.mp supply
    obtain ⟨conditionSupply, resultSupply⟩ := supply_append.mp firstSupply
    obtain ⟨firstQuiet, restQuiet⟩ := Bool.or_eq_false_iff.mp quiet
    obtain ⟨conditionQuiet, resultQuiet⟩ := Bool.or_eq_false_iff.mp firstQuiet
    rw [simplifyBranches, branchesRaise,
      raises_simplifyExpression row condition conditionTyped conditionScalars conditionSupply conditionQuiet,
      raises_simplifyExpression row result resultTyped resultScalars resultSupply resultQuiet,
      branchesRaise_simplifyBranches row rest restTyped restScalars restSupply restQuiet]
    rfl

end

/-! ## What is not folded -/

/-- The exact result of an operation on two integers is a 64-bit one. -/
def HasInt64Result (op : BinaryOperator) (left right : Int64) : Prop :=
  ∃ exact_result, integerArithmetic op left.toInt right.toInt = some exact_result ∧
    inInt64 exact_result = true

/-- Integers are folded only to their exact 64-bit result. -/
theorem foldArithmeticInt64_eq_none {op : BinaryOperator} {left right : Int64}
    (overflow : ¬ HasInt64Result op left right) : foldArithmeticInt64 op left right = none := by
  cases folded : foldArithmeticInt64 op left right with
  | none => rfl
  | some result =>
    exact absurd ⟨result.toInt, foldArithmeticInt64_exact folded, toInt_inInt64 result⟩ overflow

theorem isLogical_of_isArithmetic {op : BinaryOperator} (arithmetical : isArithmetic op = true) :
    isLogical op = false := by
  cases op <;> first | rfl | cases arithmetical

theorem simplifyExpression_of_not_folded {op : BinaryOperator} {left right : Expression} {type : DataType}
    {leftValue rightValue : LiteralStorage} {leftType rightType : DataType}
    (arithmetical : isArithmetic op = true)
    (leftLiteral : simplifyExpression left = .literal leftValue leftType)
    (rightLiteral : simplifyExpression right = .literal rightValue rightType)
    (unfolded : foldLiterals op leftValue rightValue type = none) :
    simplifyExpression (.binary op left right type) =
      .binary op (.literal leftValue leftType) (.literal rightValue rightType) type := by
  rw [simplifyExpression, leftLiteral, rightLiteral, simplifyBinary,
    isLogical_of_isArithmetic arithmetical]
  simp only [unfolded, Bool.false_eq_true, if_false, Option.getD_none]

/-- A division by a double zero is not folded. -/
theorem foldLiterals_divide_zero {left right : LiteralStorage} {zero : Float} (type : DataType)
    (mixed : (∀ value, left ≠ .int64 value) ∨ ∀ value, right ≠ .int64 value)
    (isNumber : literalAsDouble right = some zero) (isZero : compareDoubles zero (ofInteger 0) = some .eq) :
    foldLiterals .divide left right type = none := by
  unfold foldLiterals
  split
  · rename_i a b
    rcases mixed with absent | absent
    · exact absurd rfl (absent a)
    · exact absurd rfl (absent b)
  · split
    · rename_i leftNumber rightNumber
      obtain rfl := Option.some.inj (isNumber.symm.trans rightNumber)
      simp only [foldDoubles, isArithmetic, if_true, foldArithmetic, isZero, ne_eq, not_true_eq_false,
        if_false, Option.bind_none]
    · rfl

/-- Simplification preserves what an expression means. The simplified expression has the value of the
original on every row and in every group. Where the original reports no error, neither does the
simplified one, for well-typed expressions whose `BETWEEN`s compare integers, truth values or texts. An
arithmetic operation on literals is left as it is where its exact result is no 64-bit integer or its
divisor is zero. -/
theorem simplifyExpression_meaning :
    (∀ (group : Option (List Row)) (row : Row) (expression : Expression),
      evalIn group row (simplifyExpression expression) = evalIn group row expression) ∧
    (∀ (row : Row) (expression : Expression), WellTyped expression → ComparesScalars expression →
      Supply [row] (columnUses expression) → raises row expression = false →
      raises row (simplifyExpression expression) = false) ∧
    (∀ (op : BinaryOperator) (left right : Expression) (type : DataType) (a b : Int64)
      (leftType rightType : DataType), isArithmetic op = true →
      simplifyExpression left = .literal (.int64 a) leftType →
      simplifyExpression right = .literal (.int64 b) rightType → ¬ HasInt64Result op a b →
      simplifyExpression (.binary op left right type) =
        .binary op (.literal (.int64 a) leftType) (.literal (.int64 b) rightType) type) ∧
    ∀ (left right : Expression) (type : DataType) (a b : LiteralStorage) (leftType rightType : DataType)
      (zero : Float), ((∀ value, a ≠ .int64 value) ∨ ∀ value, b ≠ .int64 value) →
      simplifyExpression left = .literal a leftType → simplifyExpression right = .literal b rightType →
      literalAsDouble b = some zero → compareDoubles zero (ofInteger 0) = some .eq →
      simplifyExpression (.binary .divide left right type) =
        .binary .divide (.literal a leftType) (.literal b rightType) type := by
  refine ⟨simplifyExpression_eval, raises_simplifyExpression, ?_, ?_⟩
  · intro op left right type a b leftType rightType arithmetical leftLiteral rightLiteral overflow
    apply simplifyExpression_of_not_folded arithmetical leftLiteral rightLiteral
    simp only [foldLiterals, foldIntegers, arithmetical, if_true, foldArithmeticInt64_eq_none overflow,
      Option.map_none]
  · intro left right type a b leftType rightType zero mixed leftLiteral rightLiteral isNumber isZero
    exact simplifyExpression_of_not_folded rfl leftLiteral rightLiteral
      (foldLiterals_divide_zero type mixed isNumber isZero)

/-- `a BETWEEN 1 AND NULL` -/
def betweenNull : Expression :=
  .between (.column "a" 0 int64Type) (makeInt64 1) (makeNull int64Type)

/-- On a row with `a = 5` the comparison with the missing bound is no error, and neither the quotient of
the least integer and -1 nor one by zero is folded. -/
theorem simplifyExpression_meaning_between :
    raises [.int 5] (simplifyExpression betweenNull) = false ∧
      simplifyExpression (.binary .divide (makeInt64 Int64.minValue) (makeInt64 (-1)) int64Type) =
        .binary .divide (makeInt64 Int64.minValue) (makeInt64 (-1)) int64Type ∧
      simplifyExpression (.binary .divide (makeInt64 1) (makeFloat64 (ofInteger 0)) float64Type) =
        .binary .divide (makeInt64 1) (makeFloat64 (ofInteger 0)) float64Type := by
  obtain ⟨_, quiet, exact_integers, doubles⟩ := simplifyExpression_meaning
  refine ⟨?_, ?_, ?_⟩
  · refine quiet [.int 5] betweenNull ⟨rfl, rfl, trivial, .inl rfl, trivial⟩ ⟨rfl, trivial, trivial, trivial⟩
      (fun row isRow use member _ => ?_) (by decide)
    obtain rfl := List.mem_singleton.mp isRow
    obtain rfl := List.mem_singleton.mp member
    rfl
  · refine exact_integers .divide _ _ int64Type Int64.minValue (-1) _ _ rfl rfl rfl ?_
    rintro ⟨quotient, ran, fits⟩
    have computed : integerArithmetic .divide Int64.minValue.toInt (-1 : Int64).toInt =
        some 9223372036854775808 := by decide
    obtain rfl := Option.some.inj (computed.symm.trans ran)
    revert fits
    decide
  · exact doubles _ _ float64Type (.int64 1) (.double (ofInteger 0)) _ _ (ofInteger 0) (.inr nofun) rfl rfl rfl
      (by decide)

end KernelLake.SimplificationErrors
