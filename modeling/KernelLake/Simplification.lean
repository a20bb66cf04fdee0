import KernelLake.Evaluation

/-!
The optimizer's expression rules: constant folding, boolean simplification, and `BETWEEN` as a
conjunction of two comparisons.

The rules work bottom-up. `simplifyUnary` and `simplifyBinary` are what happens at one node once its
operands are simplified. The source simplifies the conjunction it builds for a `BETWEEN` once more,
operands included; since simplifying is idempotent that changes nothing, and the recursion here
stays structural (`simplifyExpression_between` is the source's own equation).
-/

namespace KernelLake.Simplification

open KernelLake.Types KernelLake.Expressions KernelLake.Evaluation KernelLake.Library.Doubles

/-! ## Constant folding -/

def literalAsDouble : LiteralStorage → Option Float
  | .int64 value => some (ofInteger value.toInt)
  | .double value => some value
  | _ => none

def foldArithmetic (op : BinaryOperator) (left right : Float) : Option Float :=
  match op with
  | .add => some (left + right)
  | .subtract => some (left - right)
  | .multiply => some (left * right)
  | .divide => if compareDoubles right (ofInteger 0) ≠ some .eq then some (left / right) else none
  | _ => none

def foldNumericComparison (op : BinaryOperator) (left right : Float) : Option Bool :=
  match op with
  | .equal => some (compareDoubles left right = some .eq)
  | .notEqual => some (compareDoubles left right ≠ some .eq)
  | .less => some (compareDoubles left right = some .lt)
  | .lessEqual => some (compareDoubles left right = some .lt ∨ compareDoubles left right = some .eq)
  | .greater => some (compareDoubles left right = some .gt)
  | .greaterEqual => some (compareDoubles left right = some .gt ∨ compareDoubles left right = some .eq)
  | _ => none

/-- Exact integer folding; a result outside 64 bits is left to run time. -/
def foldArithmeticInt64 (op : BinaryOperator) (left right : Int64) : Option Int64 :=
  match op with
  | .add => checkedInt64 (left.toInt + right.toInt)
  | .subtract => checkedInt64 (left.toInt - right.toInt)
  | .multiply => checkedInt64 (left.toInt * right.toInt)
  | .divide =>
    if right = 0 ∨ (left = Int64.minValue ∧ right = -1) then none else some (left / right)
  | _ => none

def foldIntegerComparison (op : BinaryOperator) (left right : Int64) : Option Bool :=
  match op with
  | .equal => some (left = right)
  | .notEqual => some (left ≠ right)
  | .less => some (left < right)
  | .lessEqual => some (left ≤ right)
  | .greater => some (left > right)
  | .greaterEqual => some (left ≥ right)
  | _ => none

/-! ## One node -/

def simplifyUnary (op : UnaryOperator) (operand : Expression) (type : DataType) : Expression :=
  match op, operand with
  | .not, .literal (.bool value) _ => makeBool (!value)
  | .not, .unary .not inner _ => inner
  | _, _ => .unary op operand type

/-- `AND` and `OR` with a constant operand. -/
def simplifyLogical (op : BinaryOperator) (left right : Expression) (type : DataType) : Expression :=
  match left with
  | .literal (.bool value) _ =>
    if op = .and then (if value then right else makeBool false)
    else (if value then makeBool true else right)
  | _ =>
    match right with
    | .literal (.bool value) _ =>
      if op = .and then (if value then left else makeBool false)
      else (if value then makeBool true else left)
    | _ => .binary op left right type

/-- Two integer literals under an arithmetic operator or a comparison. -/
def foldIntegers (op : BinaryOperator) (left right : Int64) (type : DataType) : Option Expression :=
  if isArithmetic op then
    (foldArithmeticInt64 op left right).map
      (fun result => if isFloating type.id then makeFloat64 (ofInteger result.toInt) else makeInt64 result)
  else (foldIntegerComparison op left right).map makeBool

/-- Two numeric literals, at least one of them a double. Where the result is no 64-bit integer the
source's conversion is undefined; the fold is then left out. -/
def foldDoubles (op : BinaryOperator) (left right : Float) (type : DataType) : Option Expression :=
  if isArithmetic op then
    (foldArithmetic op left right).bind
      (fun result =>
        if isFloating type.id then some (makeFloat64 result)
        else (truncateToInt64 result).map makeInt64)
  else (foldNumericComparison op left right).map makeBool

def foldLiterals (op : BinaryOperator) (left right : LiteralStorage) (type : DataType) :
    Option Expression :=
  match left, right with
  | .int64 left, .int64 right => foldIntegers op left right type
  | left, right =>
    match literalAsDouble left, literalAsDouble right with
    | some left, some right => foldDoubles op left right type
    | _, _ => none

def simplifyBinary (op : BinaryOperator) (left right : Expression) (type : DataType) : Expression :=
  if isLogical op then simplifyLogical op left right type
  else
    match left, right with
    | .literal leftValue _, .literal rightValue _ =>
      (foldLiterals op leftValue rightValue type).getD (.binary op left right type)
    | _, _ => .binary op left right type

/-- The conjunction a `BETWEEN` stands for. -/
def betweenConjunction (value lower upper : Expression) : Expression :=
  let nullable :=
    value.resultType.nullable || lower.resultType.nullable || upper.resultType.nullable
  .binary .and (.binary .greaterEqual value lower (booleanType nullable))
    (.binary .lessEqual value upper (booleanType nullable)) (booleanType nullable)

/-- A `BETWEEN` over simplified operands. -/
def simplifyBetween (value lower upper : Expression) : Expression :=
  let nullable :=
    value.resultType.nullable || lower.resultType.nullable || upper.resultType.nullable
  simplifyBinary .and (simplifyBinary .greaterEqual value lower (booleanType nullable))
    (simplifyBinary .lessEqual value upper (booleanType nullable)) (booleanType nullable)

/-! ## Whole expressions -/

mutual

def simplifyExpression : Expression → Expression
  | .column name columnIndex type => .column name columnIndex type
  | .literal value type => .literal value type
  | .binary op left right type =>
    simplifyBinary op (simplifyExpression left) (simplifyExpression right) type
  | .unary op operand type => simplifyUnary op (simplifyExpression operand) type
  | .cast operand type => .cast (simplifyExpression operand) type
  | .extract part operand type => .extract part (simplifyExpression operand) type
  | .substring operand start length type => .substring (simplifyExpression operand) start length type
  | .between value lower upper =>
    simplifyBetween (simplifyExpression value) (simplifyExpression lower) (simplifyExpression upper)
  | .like value pattern negated => .like (simplifyExpression value) pattern negated
  | .caseWhen branches type => .caseWhen (simplifyBranches branches) type
  | .aggregate function argument type => .aggregate function (simplifyExpression argument) type
  | .countStar type => .countStar type

def simplifyBranches : CaseBranches → CaseBranches
  | .done => .done
  | .otherwise result => .otherwise (simplifyExpression result)
  | .when condition result rest =>
    .when (simplifyExpression condition) (simplifyExpression result) (simplifyBranches rest)

end

end KernelLake.Simplification
