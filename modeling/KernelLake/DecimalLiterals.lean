import KernelLake.RewriteProofs

/-!
Plans as the engine computes with their DECIMAL literals.

The binder retypes a number literal beside a DECIMAL in place and keeps its double. Evaluation reads the
double; the engine reads the literal's units, the double rounded to the scale of its type. `inUnits` writes
every such literal as the cast that gives the units, so that the rows of `inUnits plan` are those of the
engine. An integer literal is exact either way. Constant folding computes with the doubles: where it never
meets a fractional literal of a DECIMAL type, rewriting a plan and writing it in units can be exchanged, and
what is known of rewriting holds of the plan in units.
-/

namespace KernelLake.DecimalLiterals

open KernelLake.Types KernelLake.Expressions KernelLake.Evaluation KernelLake.LogicalPlans
open KernelLake.Simplification KernelLake.SimplificationProofs KernelLake.Optimizer
open KernelLake.PlanSemantics KernelLake.ColumnProofs KernelLake.RewriteProofs KernelLake.Library.Doubles

/-! ## Units -/

/-- A fractional literal of a DECIMAL type, as `decimal_raw_value` reads it: its double, rounded to units. -/
def literalInUnits : LiteralStorage → DataType → Expression
  | .double value, type =>
    if type.id = .decimal then .cast (makeFloat64 value) type else .literal (.double value) type
  | value, type => .literal value type

mutual

/-- An expression with its DECIMAL literals in units. -/
def inUnits : Expression → Expression
  | .column name columnIndex type => .column name columnIndex type
  | .literal value type => literalInUnits value type
  | .binary op left right type => .binary op (inUnits left) (inUnits right) type
  | .unary op operand type => .unary op (inUnits operand) type
  | .cast operand type => .cast (inUnits operand) type
  | .extract part operand type => .extract part (inUnits operand) type
  | .substring operand start length type => .substring (inUnits operand) start length type
  | .between value lower upper => .between (inUnits value) (inUnits lower) (inUnits upper)
  | .like value pattern negated => .like (inUnits value) pattern negated
  | .caseWhen branches type => .caseWhen (branchesInUnits branches) type
  | .aggregate function argument type => .aggregate function (inUnits argument) type
  | .countStar type => .countStar type

def branchesInUnits : CaseBranches → CaseBranches
  | .done => .done
  | .otherwise result => .otherwise (inUnits result)
  | .when condition result rest => .when (inUnits condition) (inUnits result) (branchesInUnits rest)

end

def itemsInUnits (items : List NamedExpression) : List NamedExpression :=
  items.map (fun item => { item with expr := inUnits item.expr })

def keysInUnits (keys : List SortKey) : List SortKey :=
  keys.map (fun key => { key with expr := inUnits key.expr })

/-- A plan with the DECIMAL literals of all of its expressions in units. -/
def planInUnits : LogicalPlan → LogicalPlan
  | .scan source => .scan source
  | .join left right leftKeyIndex rightKeyIndex joinType residualPredicate =>
    .join (planInUnits left) (planInUnits right) leftKeyIndex rightKeyIndex joinType
      (residualPredicate.map inUnits)
  | .filter child predicate => .filter (planInUnits child) (inUnits predicate)
  | .projection child items => .projection (planInUnits child) (itemsInUnits items)
  | .aggregate child groupBy aggregates =>
    .aggregate (planInUnits child) (itemsInUnits groupBy) (itemsInUnits aggregates)
  | .sort child keys => .sort (planInUnits child) (keysInUnits keys)
  | .limit child limit => .limit (planInUnits child) limit

/-- In units, a literal is the decimal that the engine rounds it to. -/
theorem evalIn_literalInUnits (group : Option (List Row)) (row : Row) {value : Float} {type : DataType}
    {units : Int} (isDecimal : type.id = .decimal) (rounded : roundToScale (type.scale.getD 0) value = some units) :
    evalIn group row (literalInUnits (.double value) type) = .decimal units (type.scale.getD 0) := by
  have positive : (tenTo (type.scale.getD 0) : Int) ≠ 0 := by exact_mod_cast (tenTo_pos _).ne'
  simp [literalInUnits, isDecimal, makeFloat64, evalIn, literalValue, castValue, castPresent, asFraction, rounded,
    Int.mul_tdiv_cancel _ positive]

/-- Against a decimal of the literal's scale the double compares as its units. -/
theorem compareValues_units {value : Float} {units unscaled scale : Int} (natural : 0 ≤ scale)
    (rounded : roundToScale scale value = some units) :
    compareValues (.decimal unscaled scale) (.double value) =
      compareValues (.decimal unscaled scale) (.decimal units scale) := by
  have noZeros : tenTo (-scale) = 1 := by
    rw [tenTo, Int.toNat_eq_zero.mpr (by omega), Nat.pow_zero]
  simp [compareValues, comparePresent, Value.integerPayload, Value.doublePayload, decimalScale, asFraction, rounded,
    noZeros]

@[simp] theorem resultType_inUnits (expression : Expression) :
    (inUnits expression).resultType = expression.resultType := by
  cases expression with
  | literal value type =>
    cases value with
    | double number =>
      simp only [inUnits, literalInUnits]
      split <;> rfl
    | _ => rfl
  | _ => rfl

/-! ## Fractions -/

mutual

/-- Whether a fractional literal of a DECIMAL type occurs in an expression. -/
def hasFraction : Expression → Bool
  | .column .. => false
  | .literal (.double _) type => type.id == .decimal
  | .literal .. => false
  | .binary _ left right _ => hasFraction left || hasFraction right
  | .unary _ operand _ => hasFraction operand
  | .cast operand _ => hasFraction operand
  | .extract _ operand _ => hasFraction operand
  | .substring operand _ _ _ => hasFraction operand
  | .between value lower upper => hasFraction value || hasFraction lower || hasFraction upper
  | .like value _ _ => hasFraction value
  | .caseWhen branches _ => branchesHaveFraction branches
  | .aggregate _ argument _ => hasFraction argument
  | .countStar _ => false

def branchesHaveFraction : CaseBranches → Bool
  | .done => false
  | .otherwise result => hasFraction result
  | .when condition result rest => hasFraction condition || hasFraction result || branchesHaveFraction rest

end

/-- Whether folding may make an expression a number: number literals, their arithmetic, and what a logical operator
passes on. -/
def isConstant : Expression → Bool
  | .literal value _ => (literalAsDouble value).isSome
  | .binary op left right _ =>
    if isLogical op then isConstant left || isConstant right
    else isArithmetic op && isConstant left && isConstant right
  | .unary op operand _ => op = .not && isConstant operand
  | _ => false

/-- Two constants that a comparison or an arithmetic operation would fold, one with a fractional DECIMAL literal. -/
def foldsFraction (left right : Expression) : Bool :=
  isConstant left && isConstant right && (hasFraction left || hasFraction right)

mutual

/-- Nowhere in an expression does constant folding meet a fractional DECIMAL literal. -/
def keepsFractions : Expression → Bool
  | .column .. => true
  | .literal .. => true
  | .binary op left right _ =>
    keepsFractions left && keepsFractions right && (isLogical op || !foldsFraction left right)
  | .unary _ operand _ => keepsFractions operand
  | .cast operand _ => keepsFractions operand
  | .extract _ operand _ => keepsFractions operand
  | .substring operand _ _ _ => keepsFractions operand
  | .between value lower upper =>
    keepsFractions value && keepsFractions lower && keepsFractions upper &&
      !foldsFraction value lower && !foldsFraction value upper
  | .like value _ _ => keepsFractions value
  | .caseWhen branches _ => branchesKeepFractions branches
  | .aggregate _ argument _ => keepsFractions argument
  | .countStar _ => true

def branchesKeepFractions : CaseBranches → Bool
  | .done => true
  | .otherwise result => keepsFractions result
  | .when condition result rest =>
    keepsFractions condition && keepsFractions result && branchesKeepFractions rest

end

/-! ## Simplification -/

/-- The storage of a literal that has no fraction of a DECIMAL. -/
def plainLiteral : Expression → Option LiteralStorage
  | .literal value type => if hasFraction (.literal value type) then none else some value
  | _ => none

theorem inUnits_of_plainLiteral {expression : Expression} {value : LiteralStorage}
    (plain : plainLiteral expression = some value) : ∃ type, expression = .literal value type ∧
      inUnits expression = .literal value type := by
  cases expression with
  | literal stored type =>
    simp only [plainLiteral] at plain
    split at plain
    · cases plain
    · rename_i whole
      obtain rfl := Option.some.inj plain
      refine ⟨type, rfl, ?_⟩
      cases stored with
      | double number =>
        simp only [hasFraction, beq_iff_eq] at whole
        simp only [inUnits, literalInUnits, if_neg whole]
      | _ => rfl
  | _ => cases plain

/-- A literal in units is a literal only where it has no fraction. -/
theorem inUnits_ne_literal {expression : Expression} (notPlain : plainLiteral expression = none)
    (value : LiteralStorage) (type : DataType) : inUnits expression ≠ .literal value type := by
  cases expression with
  | literal stored literalType =>
    cases stored with
    | double number =>
      have fraction : literalType.id = .decimal := by simpa [plainLiteral, hasFraction] using notPlain
      simp [inUnits, literalInUnits, fraction]
    | _ => cases notPlain
  | _ => simp [inUnits]

/-- Folding makes a truth value, or a number of two numbers. -/
theorem foldLiterals_cases {op : BinaryOperator} {left right : LiteralStorage} {type : DataType} {folded : Expression}
    (ran : foldLiterals op left right type = some folded) :
    (literalAsDouble left).isSome = true ∧ (literalAsDouble right).isSome = true ∧
      (isArithmetic op = true ∨ isConstant folded = false) ∧ inUnits folded = folded ∧
        hasFraction folded = false ∧ keepsFractions folded = true := by
  unfold foldLiterals foldIntegers foldDoubles at ran
  split at ran
  · refine ⟨rfl, rfl, ?_⟩
    split at ran
    · rename_i arithmetic
      obtain ⟨result, _, rfl⟩ := Option.map_eq_some_iff.mp ran
      split <;> exact ⟨.inl arithmetic, rfl, rfl, rfl⟩
    · obtain ⟨result, _, rfl⟩ := Option.map_eq_some_iff.mp ran
      exact ⟨.inr rfl, rfl, rfl, rfl⟩
  · split at ran
    · rename_i leftNumber rightNumber isLeft isRight
      refine ⟨by rw [isLeft]; rfl, by rw [isRight]; rfl, ?_⟩
      split at ran
      · rename_i arithmetic
        obtain ⟨result, _, delivered⟩ := Option.bind_eq_some_iff.mp ran
        split at delivered
        · obtain rfl := Option.some.inj delivered
          exact ⟨.inl arithmetic, rfl, rfl, rfl⟩
        · obtain ⟨whole, _, rfl⟩ := Option.map_eq_some_iff.mp delivered
          exact ⟨.inl arithmetic, rfl, rfl, rfl⟩
      · obtain ⟨result, _, rfl⟩ := Option.map_eq_some_iff.mp ran
        exact ⟨.inr rfl, rfl, rfl, rfl⟩
    · cases ran

/-- A logical operator looks for a constant truth value on its left, then on its right. -/
theorem simplifyLogical_eq (op : BinaryOperator) (left right : Expression) (type : DataType) :
    simplifyLogical op left right type =
      match constantPredicate left, constantPredicate right with
      | some value, _ => if op = .and then (if value then right else makeBool false)
        else (if value then makeBool true else right)
      | none, some value => if op = .and then (if value then left else makeBool false)
        else (if value then makeBool true else left)
      | none, none => .binary op left right type := by
  unfold simplifyLogical
  split
  · rfl
  · rename_i notLeft
    have noLeft : constantPredicate left = none := by
      unfold constantPredicate
      split
      · exact absurd rfl (notLeft _ _)
      · rfl
    rw [noLeft]
    split
    · rfl
    · rename_i notRight
      have noRight : constantPredicate right = none := by
        unfold constantPredicate
        split
        · exact absurd rfl (notRight _ _)
        · rfl
      rw [noRight]

theorem constantPredicate_inUnits (expression : Expression) :
    constantPredicate (inUnits expression) = constantPredicate expression := by
  cases expression with
  | literal value type =>
    cases value with
    | double number =>
      simp only [inUnits, literalInUnits]
      split <;> rfl
    | _ => rfl
  | _ => rfl

/-! ### Nodes -/

/-- What a binary node that is no logical one folds to. -/
def foldNode (op : BinaryOperator) (left right : Expression) (type : DataType) : Option Expression :=
  match left, right with
  | .literal leftValue _, .literal rightValue _ => foldLiterals op leftValue rightValue type
  | _, _ => none

theorem simplifyBinary_eq_foldNode {op : BinaryOperator} (plain : isLogical op = false) (left right : Expression)
    (type : DataType) :
    simplifyBinary op left right type = (foldNode op left right type).getD (.binary op left right type) := by
  unfold simplifyBinary
  rw [plain, if_neg Bool.false_ne_true]
  cases left with
  | literal leftValue leftType => cases right <;> rfl
  | _ => rfl

theorem simplifyBinary_logical {op : BinaryOperator} (logical : isLogical op = true) (left right : Expression)
    (type : DataType) : simplifyBinary op left right type = simplifyLogical op left right type :=
  if_pos logical

theorem foldNode_cases {op : BinaryOperator} {left right : Expression} {type : DataType} {folded : Expression}
    (ran : foldNode op left right type = some folded) :
    isConstant left = true ∧ isConstant right = true ∧ (isArithmetic op = true ∨ isConstant folded = false) ∧
      inUnits folded = folded ∧ hasFraction folded = false ∧ keepsFractions folded = true := by
  unfold foldNode at ran
  split at ran
  · obtain ⟨leftNumber, rightNumber, rest⟩ := foldLiterals_cases ran
    exact ⟨leftNumber, rightNumber, rest⟩
  · cases ran

theorem foldNode_inUnits {op : BinaryOperator} {left right : Expression} (type : DataType)
    (keeps : foldsFraction left right = false) :
    foldNode op (inUnits left) (inUnits right) type = foldNode op left right type := by
  have noFold (notPlain : plainLiteral left = none ∨ plainLiteral right = none) :
      foldNode op left right type = none := by
    cases ran : foldNode op left right type with
    | none => rfl
    | some folded =>
      obtain ⟨leftConstant, rightConstant, -⟩ := foldNode_cases ran
      have whole : hasFraction left = false ∧ hasFraction right = false := by
        simpa [foldsFraction, leftConstant, rightConstant] using keeps
      unfold foldNode at ran
      split at ran
      · simp [plainLiteral, whole.1, whole.2] at notPlain
      · cases ran
  have noLiteral {operand : Expression} (value : LiteralStorage) (literalType : DataType)
      (notPlain : plainLiteral operand = none) : inUnits operand ≠ .literal value literalType :=
    inUnits_ne_literal notPlain value literalType
  cases leftPlain : plainLiteral left with
  | none =>
    rw [noFold (.inl leftPlain)]
    unfold foldNode
    split
    · rename_i isLeft _
      exact absurd isLeft (noLiteral _ _ leftPlain)
    · rfl
  | some leftValue =>
    cases rightPlain : plainLiteral right with
    | none =>
      rw [noFold (.inr rightPlain)]
      unfold foldNode
      split
      · rename_i isRight
        exact absurd isRight (noLiteral _ _ rightPlain)
      · rfl
    | some rightValue =>
      obtain ⟨leftType, rfl, leftSame⟩ := inUnits_of_plainLiteral leftPlain
      obtain ⟨rightType, rfl, rightSame⟩ := inUnits_of_plainLiteral rightPlain
      rw [leftSame, rightSame]

/-- What a binary node becomes: an operand of a logical operator, a folded constant, or the node itself. -/
theorem simplifyBinary_outcomes (op : BinaryOperator) (left right : Expression) (type : DataType) :
    isLogical op = true ∧
        (simplifyBinary op left right type = left ∨ simplifyBinary op left right type = right) ∨
      (hasFraction (simplifyBinary op left right type) = false ∧
        keepsFractions (simplifyBinary op left right type) = true ∧
        (isConstant (simplifyBinary op left right type) = true →
          isConstant (.binary op left right type) = true)) ∨
      simplifyBinary op left right type = .binary op left right type := by
  cases logical : isLogical op with
  | true =>
    rw [simplifyBinary_logical logical, simplifyLogical_eq]
    split
    · split <;> split <;> simp [makeBool, hasFraction, keepsFractions, isConstant, literalAsDouble]
    · split <;> split <;> simp [makeBool, hasFraction, keepsFractions, isConstant, literalAsDouble]
    · exact .inr (.inr rfl)
  | false =>
    rw [simplifyBinary_eq_foldNode logical]
    cases ran : foldNode op left right type with
    | none => exact .inr (.inr rfl)
    | some folded =>
      obtain ⟨leftConstant, rightConstant, arithmetic, -, noFraction, keeps⟩ := foldNode_cases ran
      refine .inr (.inl ⟨noFraction, keeps, fun constant => ?_⟩)
      rcases arithmetic with arithmetic | notConstant
      · simp [isConstant, logical, arithmetic, leftConstant, rightConstant]
      · rw [Option.getD_some, notConstant] at constant
        cases constant

theorem isConstant_simplifyBinary {op : BinaryOperator} {left right : Expression} {type : DataType}
    (constant : isConstant (simplifyBinary op left right type) = true) :
    isConstant (.binary op left right type) = true := by
  rcases simplifyBinary_outcomes op left right type with ⟨logical, same | same⟩ | ⟨-, -, folded⟩ | same
  · rw [same] at constant
    simp [isConstant, logical, constant]
  · rw [same] at constant
    simp [isConstant, logical, constant]
  · exact folded constant
  · rwa [same] at constant

theorem hasFraction_simplifyBinary {op : BinaryOperator} {left right : Expression} {type : DataType}
    (fraction : hasFraction (simplifyBinary op left right type) = true) :
    hasFraction left = true ∨ hasFraction right = true := by
  rcases simplifyBinary_outcomes op left right type with ⟨-, same | same⟩ | ⟨noFraction, -, -⟩ | same
  · rw [same] at fraction
    exact .inl fraction
  · rw [same] at fraction
    exact .inr fraction
  · rw [noFraction] at fraction
    cases fraction
  · rw [same] at fraction
    simpa [hasFraction] using fraction

theorem keepsFractions_simplifyBinary {op : BinaryOperator} {left right : Expression} {type : DataType}
    (leftKeeps : keepsFractions left = true) (rightKeeps : keepsFractions right = true)
    (keeps : isLogical op = true ∨ foldsFraction left right = false) :
    keepsFractions (simplifyBinary op left right type) = true := by
  rcases simplifyBinary_outcomes op left right type with ⟨-, same | same⟩ | ⟨-, folded, -⟩ | same
  · rwa [same]
  · rwa [same]
  · exact folded
  · rw [same]
    simpa [keepsFractions, leftKeeps, rightKeeps] using keeps

theorem simplifyBinary_inUnits {op : BinaryOperator} {left right : Expression} (type : DataType)
    (keeps : isLogical op = true ∨ foldsFraction left right = false) :
    simplifyBinary op (inUnits left) (inUnits right) type = inUnits (simplifyBinary op left right type) := by
  cases logical : isLogical op with
  | true =>
    rw [simplifyBinary_logical logical, simplifyBinary_logical logical, simplifyLogical_eq, simplifyLogical_eq,
      constantPredicate_inUnits, constantPredicate_inUnits]
    split
    · split <;> split <;> rfl
    · split <;> split <;> rfl
    · rfl
  | false =>
    have noFraction := keeps.resolve_left (by rw [logical]; exact Bool.false_ne_true)
    rw [simplifyBinary_eq_foldNode logical, simplifyBinary_eq_foldNode logical, foldNode_inUnits type noFraction]
    cases ran : foldNode op left right type with
    | none => rfl
    | some folded => exact (foldNode_cases ran).2.2.2.1.symm

/-- What a unary node becomes: a truth value, the operand of a double negation, or the node itself. -/
theorem simplifyUnary_outcomes (op : UnaryOperator) (operand : Expression) (type : DataType) :
    (∃ value, simplifyUnary op operand type = makeBool value ∧
        simplifyUnary op (inUnits operand) type = makeBool value) ∨
      (∃ inner innerType, op = .not ∧ operand = .unary .not inner innerType ∧
        simplifyUnary op operand type = inner ∧ simplifyUnary op (inUnits operand) type = inUnits inner) ∨
      simplifyUnary op operand type = .unary op operand type ∧
        simplifyUnary op (inUnits operand) type = .unary op (inUnits operand) type := by
  cases op with
  | not =>
    cases operand with
    | literal value literalType =>
      cases value with
      | bool value => exact .inl ⟨_, rfl, rfl⟩
      | double number =>
        refine .inr (.inr ⟨rfl, ?_⟩)
        simp only [inUnits, literalInUnits]
        split <;> rfl
      | _ => exact .inr (.inr ⟨rfl, rfl⟩)
    | unary innerOp inner innerType =>
      cases innerOp with
      | not => exact .inr (.inl ⟨_, _, rfl, rfl, rfl, rfl⟩)
      | _ => exact .inr (.inr ⟨rfl, rfl⟩)
    | _ => exact .inr (.inr ⟨rfl, rfl⟩)
  | _ => exact .inr (.inr ⟨rfl, rfl⟩)

/-! ### Expressions -/

theorem isConstant_simplifyExpression : (expression : Expression) →
    isConstant (simplifyExpression expression) = true → isConstant expression = true
  | .column .., constant => constant
  | .literal .., constant => constant
  | .binary op left right type, constant => by
    have here := isConstant_simplifyBinary constant
    simp only [isConstant] at here ⊢
    split at here
    · rename_i logical
      rw [if_pos logical]
      simp only [Bool.or_eq_true] at here ⊢
      exact here.imp (isConstant_simplifyExpression left) (isConstant_simplifyExpression right)
    · rename_i plain
      rw [if_neg plain]
      simp only [Bool.and_eq_true] at here ⊢
      exact ⟨⟨here.1.1, isConstant_simplifyExpression left here.1.2⟩, isConstant_simplifyExpression right here.2⟩
  | .unary op operand type, constant => by
    rw [simplifyExpression] at constant
    rcases simplifyUnary_outcomes op (simplifyExpression operand) type with
      ⟨value, same, -⟩ | ⟨inner, innerType, rfl, shape, same, -⟩ | ⟨same, -⟩
    · rw [same] at constant
      cases constant
    · rw [same] at constant
      have simplified : isConstant (simplifyExpression operand) = true := by
        simpa [shape, isConstant] using constant
      simpa [isConstant] using isConstant_simplifyExpression operand simplified
    · rw [same] at constant
      simp only [isConstant, Bool.and_eq_true] at constant ⊢
      exact ⟨constant.1, isConstant_simplifyExpression operand constant.2⟩
  | .cast .., constant => by cases constant
  | .extract .., constant => by cases constant
  | .substring .., constant => by cases constant
  | .between value lower upper, constant => by
    rw [simplifyExpression, simplifyBetween] at constant
    have either := isConstant_simplifyBinary constant
    simp only [isConstant, isLogical, if_true, Bool.or_eq_true] at either
    rcases either with bound | bound
    all_goals
      have compared := isConstant_simplifyBinary bound
      simp [isConstant, isLogical, isArithmetic] at compared
  | .like .., constant => by cases constant
  | .caseWhen .., constant => by cases constant
  | .aggregate .., constant => by cases constant
  | .countStar _, constant => by cases constant

mutual

theorem hasFraction_simplifyExpression : (expression : Expression) →
    hasFraction (simplifyExpression expression) = true → hasFraction expression = true
  | .column .., fraction => fraction
  | .literal .., fraction => fraction
  | .binary op left right type, fraction => by
    simp only [hasFraction, Bool.or_eq_true]
    exact (hasFraction_simplifyBinary fraction).imp (hasFraction_simplifyExpression left)
      (hasFraction_simplifyExpression right)
  | .unary op operand type, fraction => by
    apply hasFraction_simplifyExpression operand
    rw [simplifyExpression] at fraction
    rcases simplifyUnary_outcomes op (simplifyExpression operand) type with
      ⟨value, same, -⟩ | ⟨inner, innerType, -, shape, same, -⟩ | ⟨same, -⟩
    · rw [same] at fraction
      cases fraction
    · rw [same] at fraction
      rwa [shape, hasFraction]
    · rwa [same] at fraction
  | .cast operand _, fraction => hasFraction_simplifyExpression operand fraction
  | .extract _ operand _, fraction => hasFraction_simplifyExpression operand fraction
  | .substring operand _ _ _, fraction => hasFraction_simplifyExpression operand fraction
  | .between value lower upper, fraction => by
    rw [simplifyExpression, simplifyBetween] at fraction
    simp only [hasFraction, Bool.or_eq_true]
    rcases hasFraction_simplifyBinary fraction with below | above
    · rcases hasFraction_simplifyBinary below with inValue | inLower
      · exact .inl (.inl (hasFraction_simplifyExpression value inValue))
      · exact .inl (.inr (hasFraction_simplifyExpression lower inLower))
    · rcases hasFraction_simplifyBinary above with inValue | inUpper
      · exact .inl (.inl (hasFraction_simplifyExpression value inValue))
      · exact .inr (hasFraction_simplifyExpression upper inUpper)
  | .like value _ _, fraction => hasFraction_simplifyExpression value fraction
  | .caseWhen branches _, fraction => branchesHaveFraction_simplifyBranches branches fraction
  | .aggregate _ argument _, fraction => hasFraction_simplifyExpression argument fraction
  | .countStar _, fraction => fraction

theorem branchesHaveFraction_simplifyBranches : (branches : CaseBranches) →
    branchesHaveFraction (simplifyBranches branches) = true → branchesHaveFraction branches = true
  | .done, fraction => fraction
  | .otherwise result, fraction => hasFraction_simplifyExpression result fraction
  | .when condition result rest, fraction => by
    simp only [simplifyBranches, branchesHaveFraction, Bool.or_eq_true] at fraction ⊢
    exact fraction.imp (Or.imp (hasFraction_simplifyExpression condition) (hasFraction_simplifyExpression result))
      (branchesHaveFraction_simplifyBranches rest)

end

theorem foldsFraction_simplifyExpression {left right : Expression} (keeps : foldsFraction left right = false) :
    foldsFraction (simplifyExpression left) (simplifyExpression right) = false := by
  rw [← Bool.not_eq_true] at keeps ⊢
  intro folds
  simp only [foldsFraction, Bool.and_eq_true, Bool.or_eq_true] at keeps folds
  exact keeps ⟨⟨isConstant_simplifyExpression left folds.1.1, isConstant_simplifyExpression right folds.1.2⟩,
    folds.2.imp (hasFraction_simplifyExpression left) (hasFraction_simplifyExpression right)⟩

theorem keepsFractions_simplifyUnary {op : UnaryOperator} {operand : Expression} {type : DataType}
    (keeps : keepsFractions operand = true) : keepsFractions (simplifyUnary op operand type) = true := by
  rcases simplifyUnary_outcomes op operand type with
    ⟨value, same, -⟩ | ⟨inner, innerType, -, shape, same, -⟩ | ⟨same, -⟩
  · rw [same]
    rfl
  · rw [same]
    rwa [shape] at keeps
  · rwa [same]

theorem simplifyUnary_inUnits (op : UnaryOperator) (operand : Expression) (type : DataType) :
    simplifyUnary op (inUnits operand) type = inUnits (simplifyUnary op operand type) := by
  rcases simplifyUnary_outcomes op operand type with
    ⟨value, same, unitsSame⟩ | ⟨inner, innerType, -, -, same, unitsSame⟩ | ⟨same, unitsSame⟩
  · rw [same, unitsSame]
    rfl
  · rw [same, unitsSame]
  · rw [same, unitsSame]
    rfl

theorem keepsFractions_simplifyBetween {value lower upper : Expression} (valueKeeps : keepsFractions value = true)
    (lowerKeeps : keepsFractions lower = true) (upperKeeps : keepsFractions upper = true)
    (below : foldsFraction value lower = false) (above : foldsFraction value upper = false) :
    keepsFractions (simplifyBetween value lower upper) = true :=
  keepsFractions_simplifyBinary (keepsFractions_simplifyBinary valueKeeps lowerKeeps (.inr below))
    (keepsFractions_simplifyBinary valueKeeps upperKeeps (.inr above)) (.inl rfl)

theorem simplifyBetween_inUnits {value lower upper : Expression} (below : foldsFraction value lower = false)
    (above : foldsFraction value upper = false) :
    simplifyBetween (inUnits value) (inUnits lower) (inUnits upper) =
      inUnits (simplifyBetween value lower upper) := by
  simp only [simplifyBetween, resultType_inUnits]
  rw [simplifyBinary_inUnits _ (.inr below), simplifyBinary_inUnits _ (.inr above),
    simplifyBinary_inUnits _ (.inl rfl)]

mutual

/-- Simplifying an expression in which folding meets no fraction leaves it so. -/
theorem keepsFractions_simplifyExpression : (expression : Expression) → keepsFractions expression = true →
    keepsFractions (simplifyExpression expression) = true
  | .column .., keeps => keeps
  | .literal .., keeps => keeps
  | .binary op left right type, keeps => by
    simp only [keepsFractions, Bool.and_eq_true, Bool.or_eq_true, Bool.not_eq_true'] at keeps
    obtain ⟨⟨leftKeeps, rightKeeps⟩, here⟩ := keeps
    exact keepsFractions_simplifyBinary (keepsFractions_simplifyExpression left leftKeeps)
      (keepsFractions_simplifyExpression right rightKeeps) (here.imp_right foldsFraction_simplifyExpression)
  | .unary _ operand _, keeps => keepsFractions_simplifyUnary (keepsFractions_simplifyExpression operand keeps)
  | .cast operand _, keeps => keepsFractions_simplifyExpression operand keeps
  | .extract _ operand _, keeps => keepsFractions_simplifyExpression operand keeps
  | .substring operand _ _ _, keeps => keepsFractions_simplifyExpression operand keeps
  | .between value lower upper, keeps => by
    simp only [keepsFractions, Bool.and_eq_true, Bool.not_eq_true'] at keeps
    obtain ⟨⟨⟨⟨valueKeeps, lowerKeeps⟩, upperKeeps⟩, below⟩, above⟩ := keeps
    exact keepsFractions_simplifyBetween (keepsFractions_simplifyExpression value valueKeeps)
      (keepsFractions_simplifyExpression lower lowerKeeps) (keepsFractions_simplifyExpression upper upperKeeps)
      (foldsFraction_simplifyExpression below) (foldsFraction_simplifyExpression above)
  | .like value _ _, keeps => keepsFractions_simplifyExpression value keeps
  | .caseWhen branches _, keeps => branchesKeepFractions_simplifyBranches branches keeps
  | .aggregate _ argument _, keeps => keepsFractions_simplifyExpression argument keeps
  | .countStar _, keeps => keeps

theorem branchesKeepFractions_simplifyBranches : (branches : CaseBranches) →
    branchesKeepFractions branches = true → branchesKeepFractions (simplifyBranches branches) = true
  | .done, keeps => keeps
  | .otherwise result, keeps => keepsFractions_simplifyExpression result keeps
  | .when condition result rest, keeps => by
    simp only [simplifyBranches, branchesKeepFractions, Bool.and_eq_true] at keeps ⊢
    exact ⟨⟨keepsFractions_simplifyExpression condition keeps.1.1, keepsFractions_simplifyExpression result keeps.1.2⟩,
      branchesKeepFractions_simplifyBranches rest keeps.2⟩

end

mutual

/-- Simplifying an expression in which folding meets no fraction comes to the same in units. -/
theorem simplifyExpression_inUnits : (expression : Expression) → keepsFractions expression = true →
    simplifyExpression (inUnits expression) = inUnits (simplifyExpression expression)
  | .column .., _ => rfl
  | .literal value type, _ => by
    simp only [simplifyExpression, inUnits]
    cases value with
    | double number =>
      simp only [literalInUnits]
      split <;> rfl
    | _ => rfl
  | .binary op left right type, keeps => by
    simp only [keepsFractions, Bool.and_eq_true, Bool.or_eq_true, Bool.not_eq_true'] at keeps
    obtain ⟨⟨leftKeeps, rightKeeps⟩, here⟩ := keeps
    rw [inUnits, simplifyExpression, simplifyExpression, simplifyExpression_inUnits left leftKeeps,
      simplifyExpression_inUnits right rightKeeps]
    exact simplifyBinary_inUnits type (here.imp_right foldsFraction_simplifyExpression)
  | .unary op operand type, keeps => by
    rw [inUnits, simplifyExpression, simplifyExpression, simplifyExpression_inUnits operand keeps]
    exact simplifyUnary_inUnits op _ type
  | .cast operand _, keeps => by
    rw [inUnits, simplifyExpression, simplifyExpression, simplifyExpression_inUnits operand keeps, inUnits]
  | .extract _ operand _, keeps => by
    rw [inUnits, simplifyExpression, simplifyExpression, simplifyExpression_inUnits operand keeps, inUnits]
  | .substring operand _ _ _, keeps => by
    rw [inUnits, simplifyExpression, simplifyExpression, simplifyExpression_inUnits operand keeps, inUnits]
  | .between value lower upper, keeps => by
    simp only [keepsFractions, Bool.and_eq_true, Bool.not_eq_true'] at keeps
    obtain ⟨⟨⟨⟨valueKeeps, lowerKeeps⟩, upperKeeps⟩, below⟩, above⟩ := keeps
    rw [inUnits, simplifyExpression, simplifyExpression, simplifyExpression_inUnits value valueKeeps,
      simplifyExpression_inUnits lower lowerKeeps, simplifyExpression_inUnits upper upperKeeps]
    exact simplifyBetween_inUnits (foldsFraction_simplifyExpression below) (foldsFraction_simplifyExpression above)
  | .like value _ _, keeps => by
    rw [inUnits, simplifyExpression, simplifyExpression, simplifyExpression_inUnits value keeps, inUnits]
  | .caseWhen branches _, keeps => by
    rw [inUnits, simplifyExpression, simplifyExpression, simplifyBranches_inUnits branches keeps, inUnits]
  | .aggregate _ argument _, keeps => by
    rw [inUnits, simplifyExpression, simplifyExpression, simplifyExpression_inUnits argument keeps, inUnits]
  | .countStar _, _ => rfl

theorem simplifyBranches_inUnits : (branches : CaseBranches) → branchesKeepFractions branches = true →
    simplifyBranches (branchesInUnits branches) = branchesInUnits (simplifyBranches branches)
  | .done, _ => rfl
  | .otherwise result, keeps => by
    rw [branchesInUnits, simplifyBranches, simplifyBranches, simplifyExpression_inUnits result keeps, branchesInUnits]
  | .when condition result rest, keeps => by
    simp only [branchesKeepFractions, Bool.and_eq_true] at keeps
    rw [branchesInUnits, simplifyBranches, simplifyBranches, simplifyExpression_inUnits condition keeps.1.1,
      simplifyExpression_inUnits result keeps.1.2, simplifyBranches_inUnits rest keeps.2, branchesInUnits]

end

/-! ## Columns and conjuncts -/

mutual

theorem collectColumns_inUnits : (expression : Expression) →
    collectColumns (inUnits expression) = collectColumns expression
  | .column .. => rfl
  | .literal value type => by
    cases value with
    | double number =>
      simp only [inUnits, literalInUnits]
      split <;> rfl
    | _ => rfl
  | .binary _ left right _ => by
    simp only [inUnits, collectColumns, collectColumns_inUnits left, collectColumns_inUnits right]
  | .unary _ operand _ => collectColumns_inUnits operand
  | .cast operand _ => collectColumns_inUnits operand
  | .extract _ operand _ => collectColumns_inUnits operand
  | .substring operand _ _ _ => collectColumns_inUnits operand
  | .between value lower upper => by
    simp only [inUnits, collectColumns, collectColumns_inUnits value, collectColumns_inUnits lower,
      collectColumns_inUnits upper]
  | .like value _ _ => collectColumns_inUnits value
  | .caseWhen branches _ => collectBranchColumns_inUnits branches
  | .aggregate _ argument _ => collectColumns_inUnits argument
  | .countStar _ => rfl

theorem collectBranchColumns_inUnits : (branches : CaseBranches) →
    collectBranchColumns (branchesInUnits branches) = collectBranchColumns branches
  | .done => rfl
  | .otherwise result => collectColumns_inUnits result
  | .when condition result rest => by
    simp only [branchesInUnits, collectBranchColumns, collectColumns_inUnits condition,
      collectColumns_inUnits result, collectBranchColumns_inUnits rest]

end

mutual

theorem shiftColumns_inUnits (delta : Nat) : (expression : Expression) →
    shiftColumns delta (inUnits expression) = inUnits (shiftColumns delta expression)
  | .column .. => rfl
  | .literal value type => by
    cases value with
    | double number =>
      simp only [inUnits, literalInUnits, shiftColumns]
      split <;> rfl
    | _ => rfl
  | .binary _ left right _ => by
    simp only [inUnits, shiftColumns, shiftColumns_inUnits delta left, shiftColumns_inUnits delta right]
  | .unary _ operand _ => by simp only [inUnits, shiftColumns, shiftColumns_inUnits delta operand]
  | .cast operand _ => by simp only [inUnits, shiftColumns, shiftColumns_inUnits delta operand]
  | .extract _ operand _ => by simp only [inUnits, shiftColumns, shiftColumns_inUnits delta operand]
  | .substring operand _ _ _ => by simp only [inUnits, shiftColumns, shiftColumns_inUnits delta operand]
  | .between value lower upper => by
    simp only [inUnits, shiftColumns, shiftColumns_inUnits delta value, shiftColumns_inUnits delta lower,
      shiftColumns_inUnits delta upper]
  | .like value _ _ => by simp only [inUnits, shiftColumns, shiftColumns_inUnits delta value]
  | .caseWhen branches _ => by simp only [inUnits, shiftColumns, shiftBranchColumns_inUnits delta branches]
  | .aggregate .. => rfl
  | .countStar _ => rfl

theorem shiftBranchColumns_inUnits (delta : Nat) : (branches : CaseBranches) →
    shiftBranchColumns delta (branchesInUnits branches) = branchesInUnits (shiftBranchColumns delta branches)
  | .done => rfl
  | .otherwise result => by simp only [branchesInUnits, shiftBranchColumns, shiftColumns_inUnits delta result]
  | .when condition result rest => by
    simp only [branchesInUnits, shiftBranchColumns, shiftColumns_inUnits delta condition,
      shiftColumns_inUnits delta result, shiftBranchColumns_inUnits delta rest]

end

theorem isConstant_shiftColumns (delta : Nat) : (expression : Expression) →
    isConstant (shiftColumns delta expression) = isConstant expression
  | .binary _ left right _ => by
    simp only [shiftColumns, isConstant, isConstant_shiftColumns delta left, isConstant_shiftColumns delta right]
  | .unary _ operand _ => by simp only [shiftColumns, isConstant, isConstant_shiftColumns delta operand]
  | .column .. | .literal .. | .cast .. | .extract .. | .substring .. | .between .. | .like .. | .caseWhen ..
  | .aggregate .. | .countStar _ => rfl

mutual

theorem hasFraction_shiftColumns (delta : Nat) : (expression : Expression) →
    hasFraction (shiftColumns delta expression) = hasFraction expression
  | .column .. => rfl
  | .literal .. => rfl
  | .binary _ left right _ => by
    simp only [shiftColumns, hasFraction, hasFraction_shiftColumns delta left, hasFraction_shiftColumns delta right]
  | .unary _ operand _ => hasFraction_shiftColumns delta operand
  | .cast operand _ => hasFraction_shiftColumns delta operand
  | .extract _ operand _ => hasFraction_shiftColumns delta operand
  | .substring operand _ _ _ => hasFraction_shiftColumns delta operand
  | .between value lower upper => by
    simp only [shiftColumns, hasFraction, hasFraction_shiftColumns delta value, hasFraction_shiftColumns delta lower,
      hasFraction_shiftColumns delta upper]
  | .like value _ _ => hasFraction_shiftColumns delta value
  | .caseWhen branches _ => branchesHaveFraction_shiftBranchColumns delta branches
  | .aggregate .. => rfl
  | .countStar _ => rfl

theorem branchesHaveFraction_shiftBranchColumns (delta : Nat) : (branches : CaseBranches) →
    branchesHaveFraction (shiftBranchColumns delta branches) = branchesHaveFraction branches
  | .done => rfl
  | .otherwise result => hasFraction_shiftColumns delta result
  | .when condition result rest => by
    simp only [shiftBranchColumns, branchesHaveFraction, hasFraction_shiftColumns delta condition,
      hasFraction_shiftColumns delta result, branchesHaveFraction_shiftBranchColumns delta rest]

end

theorem foldsFraction_shiftColumns (delta : Nat) (left right : Expression) :
    foldsFraction (shiftColumns delta left) (shiftColumns delta right) = foldsFraction left right := by
  simp only [foldsFraction, isConstant_shiftColumns, hasFraction_shiftColumns]

mutual

theorem keepsFractions_shiftColumns (delta : Nat) : (expression : Expression) →
    keepsFractions (shiftColumns delta expression) = keepsFractions expression
  | .column .. => rfl
  | .literal .. => rfl
  | .binary _ left right _ => by
    simp only [shiftColumns, keepsFractions, keepsFractions_shiftColumns delta left,
      keepsFractions_shiftColumns delta right, foldsFraction_shiftColumns]
  | .unary _ operand _ => keepsFractions_shiftColumns delta operand
  | .cast operand _ => keepsFractions_shiftColumns delta operand
  | .extract _ operand _ => keepsFractions_shiftColumns delta operand
  | .substring operand _ _ _ => keepsFractions_shiftColumns delta operand
  | .between value lower upper => by
    simp only [shiftColumns, keepsFractions, keepsFractions_shiftColumns delta value,
      keepsFractions_shiftColumns delta lower, keepsFractions_shiftColumns delta upper, foldsFraction_shiftColumns]
  | .like value _ _ => keepsFractions_shiftColumns delta value
  | .caseWhen branches _ => branchesKeepFractions_shiftBranchColumns delta branches
  | .aggregate .. => rfl
  | .countStar _ => rfl

theorem branchesKeepFractions_shiftBranchColumns (delta : Nat) : (branches : CaseBranches) →
    branchesKeepFractions (shiftBranchColumns delta branches) = branchesKeepFractions branches
  | .done => rfl
  | .otherwise result => keepsFractions_shiftColumns delta result
  | .when condition result rest => by
    simp only [shiftBranchColumns, branchesKeepFractions, keepsFractions_shiftColumns delta condition,
      keepsFractions_shiftColumns delta result, branchesKeepFractions_shiftBranchColumns delta rest]

end

theorem collectConjuncts_inUnits (predicate : Expression) :
    collectConjuncts (inUnits predicate) = (collectConjuncts predicate).map inUnits := by
  fun_induction collectConjuncts predicate with
  | case1 left right type ihLeft ihRight => rw [inUnits, collectConjuncts, ihLeft, ihRight, List.map_append]
  | case2 predicate noConjunction =>
    cases predicate with
    | binary op left right type =>
      cases op with
      | and => exact absurd rfl (noConjunction left right type)
      | _ => rfl
    | literal value type =>
      cases value with
      | double number =>
        simp only [List.map_cons, List.map_nil, inUnits, literalInUnits]
        split <;> rfl
      | _ => rfl
    | _ => rfl

theorem keepsFractions_of_conjunct {predicate conjunct : Expression} (keeps : keepsFractions predicate = true)
    (member : conjunct ∈ collectConjuncts predicate) : keepsFractions conjunct = true := by
  fun_induction collectConjuncts predicate with
  | case1 left right type ihLeft ihRight =>
    simp only [keepsFractions, Bool.and_eq_true] at keeps
    rcases List.mem_append.mp member with inLeft | inRight
    · exact ihLeft keeps.1.1 inLeft
    · exact ihRight keeps.1.2 inRight
  | case2 predicate noConjunction =>
    obtain rfl := List.mem_singleton.mp member
    exact keeps

theorem conjunction_inUnits (first : Expression) (rest : List Expression) :
    conjunction (inUnits first) (rest.map inUnits) = inUnits (conjunction first rest) := by
  unfold conjunction
  induction rest generalizing first with
  | nil => rfl
  | cons conjunct rest hypothesis =>
    rw [List.map_cons, List.foldl_cons, List.foldl_cons, ← hypothesis]
    simp only [resultType_inUnits, inUnits]

theorem keepsFractions_conjunction {first : Expression} {rest : List Expression}
    (all : ∀ conjunct ∈ first :: rest, keepsFractions conjunct = true) :
    keepsFractions (conjunction first rest) = true := by
  unfold conjunction
  induction rest generalizing first with
  | nil => exact all first (List.mem_cons_self ..)
  | cons conjunct rest hypothesis =>
    obtain ⟨firstKeeps, nextKeeps, restKeep⟩ := by simpa using all
    refine hypothesis (List.forall_mem_cons.mpr ⟨?_, restKeep⟩)
    simp [keepsFractions, isLogical, firstKeeps, nextKeeps]

/-! ## Plans -/

/-- Nowhere in a plan does constant folding meet a fractional DECIMAL literal. Residual predicates are not folded. -/
def planKeepsFractions : LogicalPlan → Bool
  | .scan _ => true
  | .join left right _ _ _ _ => planKeepsFractions left && planKeepsFractions right
  | .filter child predicate => planKeepsFractions child && keepsFractions predicate
  | .projection child items => planKeepsFractions child && items.all (fun item => keepsFractions item.expr)
  | .aggregate child groupBy aggregates =>
    planKeepsFractions child && groupBy.all (fun item => keepsFractions item.expr) &&
      aggregates.all (fun item => keepsFractions item.expr)
  | .sort child keys => planKeepsFractions child && keys.all (fun key => keepsFractions key.expr)
  | .limit child _ => planKeepsFractions child

theorem namedFields_itemsInUnits (items : List NamedExpression) :
    namedFields (itemsInUnits items) = namedFields items := by
  simp [namedFields, itemsInUnits]

theorem outputSchema_planInUnits (plan : LogicalPlan) : (planInUnits plan).outputSchema = plan.outputSchema := by
  induction plan with
  | scan source => rfl
  | join left right leftKeyIndex rightKeyIndex joinType residualPredicate ihLeft ihRight =>
    simp only [planInUnits, LogicalPlan.outputSchema, ihLeft, ihRight]
  | filter child predicate hypothesis => exact hypothesis
  | projection child items => exact namedFields_itemsInUnits items
  | aggregate child groupBy aggregates =>
    simp only [planInUnits, LogicalPlan.outputSchema, namedFields_itemsInUnits]
  | sort child keys hypothesis => exact hypothesis
  | limit child limit hypothesis => exact hypothesis

theorem width_planInUnits (plan : LogicalPlan) : (planInUnits plan).width = plan.width :=
  congrArg List.length (outputSchema_planInUnits plan)

theorem planInUnits_filterAll (child : LogicalPlan) (predicates : List Expression) :
    filterAll (planInUnits child) (predicates.map inUnits) = planInUnits (filterAll child predicates) := by
  cases predicates with
  | nil => rfl
  | cons first rest =>
    rw [List.map_cons, filterAll, filterAll, planInUnits, conjunction_inUnits]

theorem planKeepsFractions_filterAll {child : LogicalPlan} {predicates : List Expression}
    (keeps : planKeepsFractions child = true) (all : ∀ conjunct ∈ predicates, keepsFractions conjunct = true) :
    planKeepsFractions (filterAll child predicates) = true := by
  cases predicates with
  | nil => exact keeps
  | cons first rest => exact Bool.and_eq_true_iff.mpr ⟨keeps, keepsFractions_conjunction all⟩

theorem placeConjuncts_inUnits (leftCount : Nat) (joinType : JoinType) (conjuncts : List Expression) :
    (placeConjuncts leftCount joinType (conjuncts.map inUnits)).left =
        (placeConjuncts leftCount joinType conjuncts).left.map inUnits ∧
      (placeConjuncts leftCount joinType (conjuncts.map inUnits)).right =
        (placeConjuncts leftCount joinType conjuncts).right.map inUnits ∧
      (placeConjuncts leftCount joinType (conjuncts.map inUnits)).remaining =
        (placeConjuncts leftCount joinType conjuncts).remaining.map inUnits := by
  have sameLeft (conjunct : Expression) : onlyLeft leftCount (inUnits conjunct) = onlyLeft leftCount conjunct := by
    simp only [onlyLeft, collectColumns_inUnits]
  have sameRight (conjunct : Expression) : onlyRight leftCount (inUnits conjunct) = onlyRight leftCount conjunct := by
    simp only [onlyRight, collectColumns_inUnits]
  refine ⟨?_, ?_, ?_⟩
  · simp only [placeConjuncts, List.filter_map, Function.comp_def, sameLeft]
  · simp only [placeConjuncts, List.filter_map, Function.comp_def, sameLeft, sameRight, List.map_map,
      shiftColumns_inUnits]
  · simp only [placeConjuncts, List.filter_map, Function.comp_def, sameLeft, sameRight]

/-- Writing a plan in units and rewriting it can be exchanged, if folding meets no fraction in it; it then meets none in
the rewritten plan either. -/
structure Exchanges (rewrite : LogicalPlan → LogicalPlan) : Prop where
  keeps : ∀ plan, planKeepsFractions plan = true → planKeepsFractions (rewrite plan) = true
  same : ∀ plan, planKeepsFractions plan = true → rewrite (planInUnits plan) = planInUnits (rewrite plan)

section Rewriting

variable {rewrite : LogicalPlan → LogicalPlan}

theorem exchanges_pushInto (exchanges : Exchanges rewrite) {input : LogicalPlan} {predicates : List Expression}
    (keeps : planKeepsFractions input = true) (all : ∀ conjunct ∈ predicates, keepsFractions conjunct = true) :
    planKeepsFractions (pushInto rewrite input predicates) = true ∧
      pushInto rewrite (planInUnits input) (predicates.map inUnits) =
        planInUnits (pushInto rewrite input predicates) := by
  cases predicates with
  | nil => exact ⟨keeps, rfl⟩
  | cons first rest =>
    have filterKeeps : planKeepsFractions (.filter input (conjunction first rest)) = true :=
      Bool.and_eq_true_iff.mpr ⟨keeps, keepsFractions_conjunction all⟩
    refine ⟨exchanges.keeps _ filterKeeps, ?_⟩
    rw [List.map_cons, pushInto, pushInto, conjunction_inUnits]
    exact exchanges.same _ filterKeeps

theorem exchanges_pushPredicateThroughJoin (exchanges : Exchanges rewrite) {left right : LogicalPlan}
    {predicate : Expression} (leftKeeps : planKeepsFractions left = true)
    (rightKeeps : planKeepsFractions right = true) (keeps : keepsFractions predicate = true)
    (leftKeyIndex rightKeyIndex : Nat) (joinType : JoinType) (residualPredicate : Option Expression) :
    (∀ pushed, pushPredicateThroughJoin rewrite left right leftKeyIndex rightKeyIndex joinType residualPredicate
        predicate = some pushed → planKeepsFractions pushed = true) ∧
      pushPredicateThroughJoin rewrite (planInUnits left) (planInUnits right) leftKeyIndex rightKeyIndex joinType
          (residualPredicate.map inUnits) (inUnits predicate) =
        (pushPredicateThroughJoin rewrite left right leftKeyIndex rightKeyIndex joinType residualPredicate
          predicate).map planInUnits := by
  have each : ∀ conjunct ∈ collectConjuncts predicate, keepsFractions conjunct = true :=
    fun conjunct => keepsFractions_of_conjunct keeps
  obtain ⟨leftSame, rightSame, remainingSame⟩ :=
    placeConjuncts_inUnits left.width joinType (collectConjuncts predicate)
  have leftEach : ∀ conjunct ∈ (placeConjuncts left.width joinType (collectConjuncts predicate)).left,
      keepsFractions conjunct = true :=
    fun conjunct member => each conjunct (List.mem_of_mem_filter member)
  have rightEach : ∀ conjunct ∈ (placeConjuncts left.width joinType (collectConjuncts predicate)).right,
      keepsFractions conjunct = true := by
    intro conjunct member
    obtain ⟨source, inConjuncts, rfl⟩ := List.mem_map.mp member
    rw [keepsFractions_shiftColumns]
    exact each source (List.mem_of_mem_filter inConjuncts)
  have toLeft := exchanges_pushInto exchanges leftKeeps leftEach
  have toRight := exchanges_pushInto exchanges rightKeeps rightEach
  constructor
  · intro pushed ran
    unfold pushPredicateThroughJoin at ran
    simp only at ran
    split at ran
    · cases ran
    obtain rfl := Option.some.inj ran
    exact planKeepsFractions_filterAll (Bool.and_eq_true_iff.mpr ⟨toLeft.1, toRight.1⟩)
      (fun conjunct member => each conjunct (List.mem_of_mem_filter member))
  · simp only [pushPredicateThroughJoin, width_planInUnits, collectConjuncts_inUnits, leftSame, rightSame,
      remainingSame, List.isEmpty_map, toLeft.2, toRight.2]
    split
    · rfl
    · rw [Option.map_some, ← planInUnits_filterAll]
      rfl

theorem exchanges_insertLimit (limit : Int) {plan : LogicalPlan} (keeps : planKeepsFractions plan = true) :
    planKeepsFractions (insertLimit limit plan) = true ∧
      insertLimit limit (planInUnits plan) = planInUnits (insertLimit limit plan) := by
  induction plan with
  | projection child items hypothesis =>
    obtain ⟨childKeeps, itemsKeep⟩ := Bool.and_eq_true_iff.mp keeps
    obtain ⟨below, same⟩ := hypothesis childKeeps
    refine ⟨Bool.and_eq_true_iff.mpr ⟨below, itemsKeep⟩, ?_⟩
    simp only [planInUnits, insertLimit, same]
  | _ => exact ⟨keeps, rfl⟩

theorem exchanges_mergedPredicate {outer inner : Expression} (outerKeeps : keepsFractions outer = true)
    (innerKeeps : keepsFractions inner = true) :
    keepsFractions (mergedPredicate outer inner) = true ∧
      mergedPredicate (inUnits outer) (inUnits inner) = inUnits (mergedPredicate outer inner) := by
  have keeps : keepsFractions (.binary .and outer inner
      (booleanType (outer.resultType.nullable || inner.resultType.nullable))) = true := by
    simp [keepsFractions, isLogical, outerKeeps, innerKeeps]
  refine ⟨keepsFractions_simplifyExpression _ keeps, ?_⟩
  rw [mergedPredicate, mergedPredicate, ← simplifyExpression_inUnits _ keeps]
  simp only [resultType_inUnits, inUnits]

theorem exchanges_rewriteFilter (exchanges : Exchanges rewrite) {child : LogicalPlan} {predicate : Expression}
    (childKeeps : planKeepsFractions child = true) (keeps : keepsFractions predicate = true) :
    planKeepsFractions (rewriteFilter rewrite child predicate) = true ∧
      rewriteFilter rewrite (planInUnits child) (inUnits predicate) =
        planInUnits (rewriteFilter rewrite child predicate) := by
  have filterKeeps : planKeepsFractions (.filter child predicate) = true :=
    Bool.and_eq_true_iff.mpr ⟨childKeeps, keeps⟩
  cases child with
  | filter grandchild inner =>
    obtain ⟨grandchildKeeps, innerKeeps⟩ := Bool.and_eq_true_iff.mp childKeeps
    obtain ⟨mergedKeeps, same⟩ := exchanges_mergedPredicate keeps innerKeeps
    have whole : planKeepsFractions (.filter grandchild (mergedPredicate predicate inner)) = true :=
      Bool.and_eq_true_iff.mpr ⟨grandchildKeeps, mergedKeeps⟩
    refine ⟨exchanges.keeps _ whole, ?_⟩
    simp only [planInUnits, rewriteFilter, same]
    exact exchanges.same _ whole
  | join left right leftKeyIndex rightKeyIndex joinType residualPredicate =>
    obtain ⟨leftKeeps, rightKeeps⟩ := Bool.and_eq_true_iff.mp childKeeps
    obtain ⟨pushedKeeps, same⟩ := exchanges_pushPredicateThroughJoin exchanges leftKeeps rightKeeps keeps leftKeyIndex
      rightKeyIndex joinType residualPredicate
    simp only [planInUnits, rewriteFilter, constantPredicate_inUnits, same]
    cases constantPredicate predicate with
    | some value => cases value <;> exact ⟨by assumption, rfl⟩
    | none =>
      cases ran : pushPredicateThroughJoin rewrite left right leftKeyIndex rightKeyIndex joinType residualPredicate
          predicate with
      | none => exact ⟨filterKeeps, rfl⟩
      | some pushed => exact ⟨pushedKeeps pushed ran, rfl⟩
  | _ =>
    simp only [planInUnits, rewriteFilter, constantPredicate_inUnits]
    cases constantPredicate predicate with
    | some value => cases value <;> exact ⟨by assumption, rfl⟩
    | none => exact ⟨filterKeeps, rfl⟩

theorem exchanges_simplifyItems {items : List NamedExpression}
    (keeps : items.all (fun item => keepsFractions item.expr) = true) :
    (simplifyItems items).all (fun item => keepsFractions item.expr) = true ∧
      simplifyItems (itemsInUnits items) = itemsInUnits (simplifyItems items) := by
  rw [List.all_eq_true] at keeps
  constructor
  · rw [List.all_eq_true, simplifyItems, List.forall_mem_map]
    exact fun item member => keepsFractions_simplifyExpression item.expr (keeps item member)
  · simp only [simplifyItems, itemsInUnits, List.map_map]
    refine List.map_congr_left (fun item member => ?_)
    simp only [Function.comp_apply, simplifyExpression_inUnits item.expr (keeps item member)]

theorem exchanges_simplifyKeys {keys : List SortKey} (keeps : keys.all (fun key => keepsFractions key.expr) = true) :
    (simplifyKeys keys).all (fun key => keepsFractions key.expr) = true ∧
      simplifyKeys (keysInUnits keys) = keysInUnits (simplifyKeys keys) := by
  rw [List.all_eq_true] at keeps
  constructor
  · rw [List.all_eq_true, simplifyKeys, List.forall_mem_map]
    exact fun key member => keepsFractions_simplifyExpression key.expr (keeps key member)
  · simp only [simplifyKeys, keysInUnits, List.map_map]
    refine List.map_congr_left (fun key member => ?_)
    simp only [Function.comp_apply, simplifyExpression_inUnits key.expr (keeps key member)]

theorem exchanges_rewriteStep (exchanges : Exchanges rewrite) : Exchanges (rewriteStep rewrite) := by
  have both (plan : LogicalPlan) (keeps : planKeepsFractions plan = true) :
      planKeepsFractions (rewriteStep rewrite plan) = true ∧
        rewriteStep rewrite (planInUnits plan) = planInUnits (rewriteStep rewrite plan) := by
    cases plan with
    | scan source => exact ⟨keeps, rfl⟩
    | join left right leftKeyIndex rightKeyIndex joinType residualPredicate =>
      obtain ⟨leftKeeps, rightKeeps⟩ := Bool.and_eq_true_iff.mp keeps
      refine ⟨Bool.and_eq_true_iff.mpr ⟨exchanges.keeps left leftKeeps, exchanges.keeps right rightKeeps⟩, ?_⟩
      simp only [planInUnits, rewriteStep, exchanges.same left leftKeeps, exchanges.same right rightKeeps]
    | filter child predicate =>
      obtain ⟨childKeeps, predicateKeeps⟩ := Bool.and_eq_true_iff.mp keeps
      simp only [planInUnits, rewriteStep, exchanges.same child childKeeps,
        simplifyExpression_inUnits predicate predicateKeeps]
      exact exchanges_rewriteFilter exchanges (exchanges.keeps child childKeeps)
        (keepsFractions_simplifyExpression predicate predicateKeeps)
    | projection child items =>
      obtain ⟨childKeeps, itemsKeep⟩ := Bool.and_eq_true_iff.mp keeps
      obtain ⟨simpleKeep, same⟩ := exchanges_simplifyItems itemsKeep
      refine ⟨Bool.and_eq_true_iff.mpr ⟨exchanges.keeps child childKeeps, simpleKeep⟩, ?_⟩
      simp only [planInUnits, rewriteStep, exchanges.same child childKeeps, same]
    | aggregate child groupBy aggregates =>
      simp only [planKeepsFractions, Bool.and_eq_true] at keeps
      obtain ⟨⟨childKeeps, keysKeep⟩, aggregatesKeep⟩ := keeps
      obtain ⟨simpleKeys, sameKeys⟩ := exchanges_simplifyItems keysKeep
      obtain ⟨simpleAggregates, sameAggregates⟩ := exchanges_simplifyItems aggregatesKeep
      refine ⟨?_, ?_⟩
      · simp only [rewriteStep, planKeepsFractions, exchanges.keeps child childKeeps, simpleKeys, simpleAggregates,
          Bool.and_self]
      · simp only [planInUnits, rewriteStep, exchanges.same child childKeeps, sameKeys, sameAggregates]
    | sort child keys =>
      obtain ⟨childKeeps, keysKeep⟩ := Bool.and_eq_true_iff.mp keeps
      obtain ⟨simpleKeep, same⟩ := exchanges_simplifyKeys keysKeep
      refine ⟨Bool.and_eq_true_iff.mpr ⟨exchanges.keeps child childKeeps, simpleKeep⟩, ?_⟩
      simp only [planInUnits, rewriteStep, exchanges.same child childKeeps, same]
    | limit child limit =>
      simp only [planInUnits, rewriteStep, exchanges.same child keeps]
      exact exchanges_insertLimit limit (exchanges.keeps child keeps)
  exact ⟨fun plan keeps => (both plan keeps).1, fun plan keeps => (both plan keeps).2⟩

theorem exchanges_rewriteWith (fuel : Nat) : Exchanges (rewriteWith fuel) := by
  induction fuel with
  | zero => exact ⟨fun _ keeps => keeps, fun _ _ => rfl⟩
  | succ fuel hypothesis => exact exchanges_rewriteStep hypothesis

end Rewriting

theorem operatorCount_planInUnits (plan : LogicalPlan) : operatorCount (planInUnits plan) = operatorCount plan := by
  induction plan <;> simp_all [planInUnits, operatorCount]

theorem topFilters_planInUnits (plan : LogicalPlan) : topFilters (planInUnits plan) = topFilters plan := by
  induction plan <;> simp_all [planInUnits, topFilters]

theorem longestRun_planInUnits (plan : LogicalPlan) : longestRun (planInUnits plan) = longestRun plan := by
  induction plan <;> simp_all [planInUnits, longestRun, topFilters, topFilters_planInUnits]

theorem rewriteFuel_planInUnits (plan : LogicalPlan) : rewriteFuel (planInUnits plan) = rewriteFuel plan := by
  rw [rewriteFuel, rewriteFuel, operatorCount_planInUnits, longestRun_planInUnits]

/-- The plan in units of a rewritten plan is the rewritten plan in units. -/
theorem exchanges_rewritePlan : Exchanges rewritePlan where
  keeps plan keeps := (exchanges_rewriteWith _).keeps plan keeps
  same plan keeps := by
    rw [rewritePlan, rewriteFuel_planInUnits]
    exact (exchanges_rewriteWith _).same plan keeps

/-- Executing a rewritten plan gives the result of the original, or an error: a conjunct pushed below a join or merged
into the filter under it meets rows the original never showed it. -/
theorem evaluate_rewritePlan {tables : Tables} {plan : LogicalPlan} {result : List Row}
    (keeps : planKeepsFractions plan = true) (ran : evaluate tables (planInUnits plan) = some result) :
    rows tables (planInUnits (rewritePlan plan)) = result ∧
      (evaluate tables (planInUnits (rewritePlan plan)) = some result ∨
        evaluate tables (planInUnits (rewritePlan plan)) = none) := by
  rw [← exchanges_rewritePlan.same plan keeps]
  exact evaluate_or_fails_rewritePlan ran

/-! ## What rewriting changes -/

def ordersSchema : Schema := [⟨"k", int64Type⟩]

def itemsSchema : Schema := [⟨"k", int64Type⟩, ⟨"y", int64Type⟩, ⟨"price", decimalType 5 2⟩]

/-- Two tables; the second has a row without a partner, and a zero in it. -/
def ordersAndItems : Tables := .ofContents [
  ⟨["orders.parquet"], ordersSchema, [[.int 1]], by decide⟩,
  ⟨["items.parquet"], itemsSchema, [[.int 1, .int 2, .decimal 13 2], [.int 2, .int 0, .decimal 99 2]], by decide⟩]

/-- `orders JOIN items ON orders.k = items.k` under a filter. -/
def filteredJoin (predicate : Expression) : LogicalPlan :=
  .filter
    (.join (.scan (.make ["orders.parquet"] ordersSchema)) (.scan (.make ["items.parquet"] itemsSchema))
      0 0 .inner none) predicate

/-- `y > 1 AND price = 0.125`; the literal is 13 units. -/
def pricedPredicate : Expression :=
  .binary .and (.binary .greater (.column "y" 2 int64Type) (makeInt64 1) booleanType)
    (.binary .equal (.column "price" 3 (decimalType 5 2)) (.literal (.double 0.125) (decimalType 5 2)) booleanType)
    booleanType

theorem evaluate_rewritePlan_filteredJoin :
    evaluate ordersAndItems (planInUnits (filteredJoin pricedPredicate)) =
        some [[.int 1, .int 1, .int 2, .decimal 13 2]] ∧
      rows ordersAndItems (planInUnits (rewritePlan (filteredJoin pricedPredicate))) =
        [[.int 1, .int 1, .int 2, .decimal 13 2]] := by
  have ran : evaluate ordersAndItems (planInUnits (filteredJoin pricedPredicate)) =
      some [[.int 1, .int 1, .int 2, .decimal 13 2]] := by decide +kernel
  exact ⟨ran, (evaluate_rewritePlan (by decide) ran).1⟩

/-- `WHERE 10 / items.y > 1` divides by zero once it runs on the unmatched row. -/
theorem rewritePlan_introduces_error :
    ¬ ∀ (tables : Tables) (plan : LogicalPlan) (result : List Row),
      evaluate tables (planInUnits plan) = some result →
        evaluate tables (planInUnits (rewritePlan plan)) = some result := by
  intro preserved
  have same := preserved ordersAndItems
    (filteredJoin (.binary .greater (.binary .divide (makeInt64 10) (.column "y" 2 int64Type) int64Type)
      (makeInt64 1) booleanType))
    [[.int 1, .int 1, .int 2, .decimal 13 2]] (by decide +kernel)
  exact absurd same (by decide +kernel)

/-- `0.126 BETWEEN price AND 0.125` folds the doubles to `FALSE`, although both literals are 13 units. -/
example :
    let plan := filteredJoin (.between (.literal (.double 0.126) (decimalType 5 2))
      (.column "price" 3 (decimalType 5 2)) (.literal (.double 0.125) (decimalType 5 2)))
    rows ordersAndItems (planInUnits plan) = [[.int 1, .int 1, .int 2, .decimal 13 2]] ∧
      rows ordersAndItems (planInUnits (rewritePlan plan)) = [] := by
  decide +kernel

end KernelLake.DecimalLiterals
