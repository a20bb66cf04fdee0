import KernelLake.Library.Doubles
import KernelLake.Expressions

/-!
What a bound expression evaluates to on one row.

Evaluation is total. An arithmetic error, a conversion that fails or a reference to a missing
column yields the value `raised`, and every strict operation passes it on; `AND` and `OR` keep SQL's
three-valued tables, so `FALSE` absorbs it in a conjunction. Whether an execution reports an error
at all is a separate question, answered by `raises` over every subexpression.

Aggregate calls have a value only relative to a group of rows, which is the evaluator's first
argument; outside a group they are errors.
-/

namespace KernelLake.Evaluation

open KernelLake.Types KernelLake.Expressions KernelLake.Library.Doubles

/-- The values of columns and expressions. Dates are days and timestamps microseconds since the
epoch; a decimal is its unscaled integer and the number of digits after the point. -/
inductive Value
  | null
  | bool (value : Bool)
  | int (value : Int)
  | double (value : Float)
  | string (value : String)
  | date (days : Int)
  | timestamp (micros : Int)
  | decimal (unscaled : Int) (scale : Int)
  | raised
  deriving DecidableEq

abbrev Row := List Value

/-- A filter keeps a row exactly when its predicate is `TRUE`. -/
def Value.isTrue (value : Value) : Bool :=
  value = .bool true

/-- The integer a value is stored as. -/
def Value.integerPayload : Value → Option Int
  | .int value => some value
  | .date days => some days
  | .timestamp micros => some micros
  | _ => none

/-- A value as a double, for the types that convert to one implicitly. -/
def Value.doublePayload : Value → Option Float
  | .double value => some value
  | value => value.integerPayload.map ofInteger

/-! ## Decimals -/

/-- Ten to a power, read as one when the exponent is negative. -/
def tenTo (exponent : Int) : Nat := 10 ^ exponent.toNat

theorem tenTo_pos (exponent : Int) : 0 < tenTo exponent :=
  Nat.pow_pos (by decide)

def int64Min : Int := -2 ^ 63
def int64Max : Int := 2 ^ 63 - 1

def inInt64 (value : Int) : Bool := int64Min ≤ value && value ≤ int64Max

/-- A double as the unscaled integer of a decimal. The rounding goes through 64 bits whatever the precision
is, and has no defined result beyond them. -/
def roundToScale (scale : Int) (value : Float) : Option Int :=
  (roundHalfAway (value * ofInteger (tenTo scale))).filter inInt64

/-- A numeric value as a fraction. A double takes part in decimal arithmetic only as a literal,
which is first rounded to the scale of the decimal it meets. -/
def asFraction (scale : Int) : Value → Option (Int × Nat)
  | .int value => some (value, 1)
  | .decimal unscaled digits => some (unscaled * tenTo (-digits), tenTo digits)
  | .double value =>
    (roundToScale scale value).map (fun raw => (raw, tenTo scale))
  | _ => none

/-- The scale at which two values meet as decimals, when one of them is a decimal. -/
def decimalScale : Value → Value → Option Int
  | .decimal _ scale, _ => some scale
  | _, .decimal _ scale => some scale
  | _, _ => none

def compareFractions (left right : Int × Nat) : Ordering :=
  compare (left.1 * right.2) (right.1 * left.2)

/-! ## Comparison -/

/-- The outcome of comparing two values. -/
inductive Comparison
  | ordered (ordering : Ordering)
  | unordered
  | unknown
  | failed
  deriving DecidableEq

def Comparison.ofDoubles : Option Ordering → Comparison
  | some ordering => .ordered ordering
  | none => .unordered

/-- Comparison of two present values. Integers compare exactly, an integer and a double as doubles,
and decimals as fractions. -/
def comparePresent (left right : Value) : Comparison :=
  match left, right with
  | .bool a, .bool b => .ordered (compare a b)
  | .string a, .string b => .ordered (compareOfLessAndEq a b)
  | _, _ =>
    match left.integerPayload, right.integerPayload with
    | some a, some b => .ordered (compare a b)
    | _, _ =>
      match left.doublePayload, right.doublePayload with
      | some a, some b => .ofDoubles (compareDoubles a b)
      | _, _ =>
        match decimalScale left right with
        | none => .failed
        | some scale =>
          match asFraction scale left, asFraction scale right with
          | some a, some b => .ordered (compareFractions a b)
          | _, _ => .failed

def compareValues (left right : Value) : Comparison :=
  match left, right with
  | .raised, _ => .failed
  | _, .raised => .failed
  | .null, _ => .unknown
  | _, .null => .unknown
  | left, right => comparePresent left right

/-- Whether a comparison operator accepts an ordering. -/
def accepts : BinaryOperator → Ordering → Bool
  | .equal, ordering => ordering == .eq
  | .notEqual, ordering => ordering != .eq
  | .less, ordering => ordering == .lt
  | .lessEqual, ordering => ordering != .gt
  | .greater, ordering => ordering == .gt
  | .greaterEqual, ordering => ordering != .lt
  | _, _ => false

/-- The truth value of a comparison operator; unordered doubles satisfy `<>` only. -/
def Comparison.truth (op : BinaryOperator) : Comparison → Value
  | .ordered ordering => .bool (accepts op ordering)
  | .unordered => .bool (op == .notEqual)
  | .unknown => .null
  | .failed => .raised

/-! ## Arithmetic -/

def isFloating : TypeId → Bool
  | .float32 | .float64 => true
  | _ => false

/-- The exact result of an integer operation; a division by zero has none. -/
def integerArithmetic (op : BinaryOperator) (left right : Int) : Option Int :=
  match op with
  | .add => some (left + right)
  | .subtract => some (left - right)
  | .multiply => some (left * right)
  | .divide => if right = 0 then none else some (left.tdiv right)
  | _ => none

/-- Integer results are carried in 64 bits, signed unless the operation's type is unsigned. -/
def integerResultFits (type : DataType) (value : Int) : Bool :=
  inInt64 value || (type.id == .uint64 && 0 ≤ value && value < 2 ^ 64)

/-- An integer result in the representation of the operation's type. -/
def deliverInteger (type : DataType) (value : Int) : Value :=
  if isFloating type.id then .double (ofInteger value) else .int value

/-- An integer as a 64-bit one, where it fits. -/
def checkedInt64 (value : Int) : Option Int64 :=
  if inInt64 value then some (Int64.ofInt value) else none

/-- A double's integer part, where a 64-bit integer can hold it. -/
def truncateToInt64 (value : Float) : Option Int64 :=
  (truncate value).bind checkedInt64

/-- A double result in the representation of the operation's type. -/
def deliverDouble (type : DataType) (value : Float) : Value :=
  if isFloating type.id then .double value
  else match truncateToInt64 value with
    | some whole => .int whole.toInt
    | none => .raised

/-- IEEE arithmetic on doubles. -/
def doubleArithmetic (op : BinaryOperator) (left right : Float) : Option Float :=
  match op with
  | .add => some (left + right)
  | .subtract => some (left - right)
  | .multiply => some (left * right)
  | .divide => some (left / right)
  | _ => none

/-- Decimal arithmetic: the exact fraction, cut off at the scale of the operation's type. -/
def decimalArithmetic (op : BinaryOperator) (scale : Int) (left right : Int × Nat) : Value :=
  let at_scale (numerator : Int) (denominator : Int) : Value :=
    .decimal ((numerator * tenTo scale).tdiv denominator) scale
  match op with
  | .add => at_scale (left.1 * right.2 + right.1 * left.2) (left.2 * right.2)
  | .subtract => at_scale (left.1 * right.2 - right.1 * left.2) (left.2 * right.2)
  | .multiply => at_scale (left.1 * right.1) (left.2 * right.2)
  | .divide => if right.1 = 0 then .raised else at_scale (left.1 * right.2) (left.2 * right.1)
  | _ => .raised

def arithmeticPresent (op : BinaryOperator) (type : DataType) (left right : Value) : Value :=
  match left.integerPayload, right.integerPayload with
  | some a, some b =>
    match (integerArithmetic op a b).filter (integerResultFits type) with
    | some result => deliverInteger type result
    | none => .raised
  | _, _ =>
    match left.doublePayload, right.doublePayload with
    | some a, some b =>
      match doubleArithmetic op a b with
      | some result => deliverDouble type result
      | none => .raised
    | _, _ =>
      match asFraction (type.scale.getD 0) left, asFraction (type.scale.getD 0) right with
      | some a, some b => decimalArithmetic op (type.scale.getD 0) a b
      | _, _ => .raised

def arithmetic (op : BinaryOperator) (type : DataType) (left right : Value) : Value :=
  match left, right with
  | .raised, _ => .raised
  | _, .raised => .raised
  | .null, _ => .null
  | _, .null => .null
  | left, right => arithmeticPresent op type left right

/-! ## Logic -/

/-- `AND`: `FALSE` absorbs, `TRUE` is neutral, and an error is stronger than `NULL`. -/
def andValue (left right : Value) : Value :=
  if left = .bool false ∨ right = .bool false then .bool false
  else if left = .bool true then right
  else if right = .bool true then left
  else if left = .raised ∨ right = .raised then .raised
  else .null

/-- `OR`, the dual of `AND`. -/
def orValue (left right : Value) : Value :=
  if left = .bool true ∨ right = .bool true then .bool true
  else if left = .bool false then right
  else if right = .bool false then left
  else if left = .raised ∨ right = .raised then .raised
  else .null

def notValue : Value → Value
  | .bool value => .bool (!value)
  | value => value

def binaryValue (op : BinaryOperator) (type : DataType) (left right : Value) : Value :=
  match op with
  | .and => andValue left right
  | .or => orValue left right
  | .add | .subtract | .multiply | .divide => arithmetic op type left right
  | _ => (compareValues left right).truth op

def negateValue : Value → Value
  | .null => .null
  | .int value => if inInt64 (-value) then .int (-value) else .raised
  | .double value => .double (-value)
  | .decimal unscaled scale => .decimal (-unscaled) scale
  | _ => .raised

def unaryValue : UnaryOperator → Value → Value
  | .not, value => notValue value
  | .negate, value => negateValue value
  | .isNull, value => if value = .raised then .raised else .bool (value = .null)
  | .isNotNull, value => if value = .raised then .raised else .bool (value ≠ .null)

/-! ## Conversions -/

def integerFits : TypeId → Int → Bool
  | .int32, value => -2 ^ 31 ≤ value && value < 2 ^ 31
  | .int64, value => inInt64 value
  | .uint32, value => 0 ≤ value && value < 2 ^ 32
  | .uint64, value => 0 ≤ value && value < 2 ^ 64
  | _, _ => false

/-- The integer part of a value, towards zero. -/
def Value.wholePart : Value → Option Int
  | .bool value => some (if value then 1 else 0)
  | .double value => truncate value
  | .decimal unscaled scale => some ((unscaled * tenTo (-scale)).tdiv (tenTo scale))
  | value => value.integerPayload

/-- The double a value converts to under an explicit cast. -/
def Value.asDouble : Value → Option Float
  | .bool value => some (ofInteger (if value then 1 else 0))
  | .decimal unscaled scale => some (ofInteger (unscaled * tenTo (-scale)) / ofInteger (tenTo scale))
  | value => value.doublePayload

/-- A double rounded to single precision and back. -/
def roundToSingle (value : Float) : Float :=
  match value.toModel.unpack with
  | .finite sign mantissa exponent _ =>
    match Float.Model.UnpackedFloat.round .binary32 sign mantissa exponent with
    | .finite sign mantissa exponent _ =>
      if 128 < Float.Model.totalExponent mantissa exponent then
        ⟨Float.Model.pack (.infinity sign)⟩
      else ⟨Float.Model.pack (Float.Model.UnpackedFloat.round .binary64 sign mantissa exponent)⟩
    | rounded => ⟨Float.Model.pack rounded⟩
  | _ => value

def microsPerDay : Int := 86400000000

/-- `CAST`. Numeric to integer truncates; a result the target cannot hold is an error, and so is
every conversion from or to text. -/
def castPresent (target : DataType) (value : Value) : Value :=
  match target.id with
  | .boolean =>
    match value with
    | .bool value => .bool value
    | .int value => .bool (value ≠ 0)
    | .double value => .bool (compareDoubles value (ofInteger 0) ≠ some .eq)
    | _ => .raised
  | .int32 | .int64 | .uint32 | .uint64 =>
    match value.wholePart with
    | some whole => if integerFits target.id whole then .int whole else .raised
    | none => .raised
  | .float64 =>
    match value.asDouble with
    | some value => .double value
    | none => .raised
  | .float32 =>
    match value.asDouble with
    | some value => .double (roundToSingle value)
    | none => .raised
  | .string =>
    match value with
    | .string text => .string text
    | _ => .raised
  | .date32 =>
    match value with
    | .timestamp micros => .date (micros.fdiv microsPerDay)
    | value =>
      match value.integerPayload with
      | some days => .date days
      | none => .raised
  | .timestamp =>
    match value with
    | .date days => .timestamp (days * microsPerDay)
    | value =>
      match value.integerPayload with
      | some micros => .timestamp micros
      | none => .raised
  | .decimal =>
    match asFraction (target.scale.getD 0) value with
    | some (numerator, denominator) =>
      .decimal ((numerator * tenTo (target.scale.getD 0)).tdiv denominator) (target.scale.getD 0)
    | none => .raised

def castValue (target : DataType) : Value → Value
  | .null => .null
  | .raised => .raised
  | value => castPresent target value

/-- The civil year, month and day of a day count, in the proleptic Gregorian calendar. -/
def civilFromDays (days : Int) : Int × Int × Int :=
  let shifted := days + 719468
  let era := shifted.fdiv 146097
  let dayOfEra := shifted - era * 146097
  let yearOfEra := (dayOfEra - dayOfEra / 1460 + dayOfEra / 36524 - dayOfEra / 146096) / 365
  let dayOfYear := dayOfEra - (365 * yearOfEra + yearOfEra / 4 - yearOfEra / 100)
  let shiftedMonth := (5 * dayOfYear + 2) / 153
  let day := dayOfYear - (153 * shiftedMonth + 2) / 5 + 1
  let month := if shiftedMonth < 10 then shiftedMonth + 3 else shiftedMonth - 9
  (yearOfEra + era * 400 + if month ≤ 2 then 1 else 0, month, day)

def datePartOf (part : DatePart) (days : Int) : Int :=
  let (year, month, day) := civilFromDays days
  match part with
  | .year => year
  | .month => month
  | .day => day

def extractValue (part : DatePart) : Value → Value
  | .null => .null
  | .date days => .int (datePartOf part days)
  | .timestamp micros => .int (datePartOf part (micros.fdiv microsPerDay))
  | _ => .raised

/-- `SUBSTRING` by characters, from a 1-based start. -/
def substringValue (start length : Int) : Value → Value
  | .null => .null
  | .string text =>
    .string (String.ofList ((text.toList.drop (start - 1).toNat).take length.toNat))
  | _ => .raised

/-- `LIKE` matching: `%` any run, `_` any one character, a backslash quotes the next one. -/
def matchesLike : List Char → List Char → Bool
  | [], text => text.isEmpty
  | '%' :: pattern, text => text.tails.any (matchesLike pattern)
  | '_' :: pattern, text =>
    match text with
    | [] => false
    | _ :: rest => matchesLike pattern rest
  | '\\' :: quoted :: pattern, text =>
    match text with
    | [] => false
    | first :: rest => first == quoted && matchesLike pattern rest
  | expected :: pattern, text =>
    match text with
    | [] => false
    | first :: rest => first == expected && matchesLike pattern rest

def likeValue (pattern : String) (negated : Bool) : Value → Value
  | .null => .null
  | .string text => .bool (matchesLike pattern.toList text.toList != negated)
  | _ => .raised

/-! ## Aggregates -/

def sumValues (type : DataType) : List Value → Value
  | [] => .null
  | first :: rest => rest.foldl (arithmetic .add type) first

/-- The extreme value of a list, the earliest among equals. -/
def extremeValue (better : Ordering) : List Value → Value
  | [] => .null
  | first :: rest =>
    rest.foldl (fun best value => if compareValues value best = .ordered better then value else best)
      first

/-- An aggregate over the argument's values in one group: nulls are skipped, errors win. -/
def aggregateValues (function : AggregateFunction) (type : DataType) (values : List Value) : Value :=
  if .raised ∈ values then .raised
  else
    let present := values.filter (· ≠ .null)
    match function with
    | .count => .int present.length
    | .countDistinct => .int present.dedup.length
    | .sum => sumValues type present
    | .min => extremeValue .lt present
    | .max => extremeValue .gt present
    | .avg => arithmetic .divide (float64Type true) (sumValues type present)
        (.double (ofInteger present.length))

/-! ## Expressions -/

/-- A literal's value: its storage, read as a date or a timestamp where its type says so. A fractional literal of a
DECIMAL type is read as written here; the engine compares its units, as `KernelLake.DecimalLiterals` reads it. -/
def literalValue : LiteralStorage → DataType → Value
  | .monostate, _ => .null
  | .bool value, _ => .bool value
  | .int64 value, type =>
    if type.id = .date32 then .date value.toInt
    else if type.id = .timestamp then .timestamp value.toInt
    else .int value.toInt
  | .double value, _ => .double value
  | .string value, _ => .string value

mutual

/-- The value of an expression on a row, with the aggregates it contains taken over `group`. -/
def evalIn (group : Option (List Row)) (row : Row) : Expression → Value
  | .column _ columnIndex _ => row.getD columnIndex .raised
  | .literal value type => literalValue value type
  | .binary op left right type => binaryValue op type (evalIn group row left) (evalIn group row right)
  | .unary op operand _ => unaryValue op (evalIn group row operand)
  | .cast operand type => castValue type (evalIn group row operand)
  | .extract part operand _ => extractValue part (evalIn group row operand)
  | .substring operand start length _ => substringValue start length (evalIn group row operand)
  | .between value lower upper =>
    andValue ((compareValues (evalIn group row value) (evalIn group row lower)).truth .greaterEqual)
      ((compareValues (evalIn group row value) (evalIn group row upper)).truth .lessEqual)
  | .like value pattern negated => likeValue pattern negated (evalIn group row value)
  | .caseWhen branches _ => evalBranchesIn group row branches
  | .aggregate function argument type =>
    match group with
    | none => .raised
    | some rows => aggregateValues function type (rows.map (fun member => evalIn none member argument))
  | .countStar _ =>
    match group with
    | none => .raised
    | some rows => .int rows.length

/-- The first branch whose condition is `TRUE`; without one, `ELSE` or `NULL`. -/
def evalBranchesIn (group : Option (List Row)) (row : Row) : CaseBranches → Value
  | .done => .null
  | .otherwise result => evalIn group row result
  | .when condition result rest =>
    match evalIn group row condition with
    | .bool true => evalIn group row result
    | .raised => .raised
    | _ => evalBranchesIn group row rest

end

/-- The value of an expression on a row. -/
abbrev eval (expression : Expression) (row : Row) : Value :=
  evalIn none row expression

abbrev evalBranches (branches : CaseBranches) (row : Row) : Value :=
  evalBranchesIn none row branches

mutual

/-- Whether evaluating an expression raises an error anywhere: both backends evaluate every operand
and every branch, also one whose value is not needed. -/
def raises (row : Row) : Expression → Bool
  | .column name columnIndex type => eval (.column name columnIndex type) row = .raised
  | .literal .. => false
  | .binary op left right type =>
    raises row left || raises row right || eval (.binary op left right type) row = .raised
  | .unary op operand type => raises row operand || eval (.unary op operand type) row = .raised
  | .cast operand type => raises row operand || eval (.cast operand type) row = .raised
  | .extract part operand type =>
    raises row operand || eval (.extract part operand type) row = .raised
  | .substring operand start length type =>
    raises row operand || eval (.substring operand start length type) row = .raised
  | .between value lower upper =>
    raises row value || raises row lower || raises row upper
      || eval (.between value lower upper) row = .raised
  | .like value pattern negated => raises row value || eval (.like value pattern negated) row = .raised
  | .caseWhen branches _ => branchesRaise row branches
  | .aggregate .. => true
  | .countStar _ => true

def branchesRaise (row : Row) : CaseBranches → Bool
  | .done => false
  | .otherwise result => raises row result
  | .when condition result rest =>
    raises row condition || raises row result || branchesRaise row rest

end

end KernelLake.Evaluation
