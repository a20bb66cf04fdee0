import KernelLake.Evaluation
import KernelLake.LogicalPlans

/-!
The two compilers of row-wise expressions and the languages they compile to.

The GPU compiler builds a cuDF expression tree and the CPU compiler an Arrow Compute call. Neither
library is part of the repository. What both document is modelled: integer arithmetic wraps at the
width of its type, a missing operand makes the result missing, `NULL_LOGICAL_AND` and `and_kleene`
keep SQL's three-valued tables, and a safe Arrow cast raises where a value does not fit. Everything
beyond integers, booleans, strings, dates and timestamps is a parameter.
-/

namespace KernelLake.ExpressionCompilers

open KernelLake.Types KernelLake.Expressions KernelLake.Evaluation KernelLake.Library.Doubles

/-! ## Values with their types -/

/-- How a present value of a type is stored. A decimal is stored as its unscaled integer. -/
def Carrier : TypeId → Type
  | .boolean => Bool
  | .int32 => Int32
  | .int64 => Int64
  | .uint32 => UInt32
  | .uint64 => UInt64
  | .float32 => Float32
  | .float64 => Float
  | .string => String
  | .date32 => Int32
  | .timestamp => Int64
  | .decimal => Int

/-- A value with its type, or a missing one. -/
structure Datum where
  id : TypeId
  value : Option (Carrier id)

/-- The value of a datum that has the given type. -/
def Datum.ofType (datum : Datum) (id : TypeId) : Option (Option (Carrier id)) :=
  if same : datum.id = id then some (same ▸ datum.value) else none

@[simp] theorem Datum.ofType_same (id : TypeId) (value : Option (Carrier id)) :
    (Datum.mk id value).ofType id = some value := by
  simp [Datum.ofType]

def isInteger : TypeId → Bool
  | .int32 | .int64 | .uint32 | .uint64 => true
  | _ => false

/-- The types whose values both libraries can compare and this model describes. -/
def isOrdered : TypeId → Bool
  | .boolean | .int32 | .int64 | .uint32 | .uint64 | .string | .date32 | .timestamp => true
  | _ => false

/-- An integer in the width of an integer type. -/
def wrap : (id : TypeId) → Int → Option (Carrier id)
  | .int32, value => some (Int32.ofInt value)
  | .int64, value => some (Int64.ofInt value)
  | .uint32, value => some (UInt32.ofInt value)
  | .uint64, value => some (UInt64.ofInt value)
  | _, _ => none

/-- The number that a value of an integer type or a boolean stands for. -/
def toNumber : (id : TypeId) → Carrier id → Option Int
  | .boolean, (value : Bool) => some (if value then 1 else 0)
  | .int32, value => some (Int32.toInt value)
  | .int64, value => some (Int64.toInt value)
  | .uint32, value => some (UInt32.toNat value)
  | .uint64, value => some (UInt64.toNat value)
  | _, _ => none

def orderOf : (id : TypeId) → Carrier id → Carrier id → Ordering
  | .boolean, (left : Bool), (right : Bool) => compare left right
  | .int32, left, right => compare (Int32.toInt left) (Int32.toInt right)
  | .int64, left, right => compare (Int64.toInt left) (Int64.toInt right)
  | .uint32, left, right => compare (UInt32.toNat left) (UInt32.toNat right)
  | .uint64, left, right => compare (UInt64.toNat left) (UInt64.toNat right)
  | .string, (left : String), (right : String) => compareOfLessAndEq left right
  | .date32, left, right => compare (Int32.toInt left) (Int32.toInt right)
  | .timestamp, left, right => compare (Int64.toInt left) (Int64.toInt right)
  | _, _, _ => .eq

/-! ## What both libraries document -/

def kleeneAnd : Option Bool → Option Bool → Option Bool
  | some false, _ => some false
  | _, some false => some false
  | some true, some true => some true
  | _, _ => none

def kleeneOr : Option Bool → Option Bool → Option Bool
  | some true, _ => some true
  | _, some true => some true
  | some false, some false => some false
  | _, _ => none

/-- What a library does where the documented rules of the two differ or say nothing. -/
structure Undocumented where
  divideByZero : (id : TypeId) → Carrier id → Except String Datum
  other : BinaryOperator → Datum → Datum → Except String Datum

/-- A binary operator on two values of one type. -/
def operate (beyond : Undocumented) (op : BinaryOperator) (id : TypeId) (left right : Option (Carrier id)) :
    Except String Datum :=
  if isLogical op then
    match (Datum.mk id left).ofType .boolean, (Datum.mk id right).ofType .boolean with
    | some left, some right =>
      .ok ⟨.boolean, if op = .and then kleeneAnd left right else kleeneOr left right⟩
    | _, _ => beyond.other op ⟨id, left⟩ ⟨id, right⟩
  else if isArithmetic op then
    if isInteger id then
      match left, right with
      | some dividend, some divisor =>
        match toNumber id dividend, toNumber id divisor with
        | some a, some b =>
          match integerArithmetic op a b with
          | some result => .ok ⟨id, wrap id result⟩
          | none => beyond.divideByZero id dividend
        | _, _ => beyond.other op ⟨id, left⟩ ⟨id, right⟩
      | _, _ => .ok ⟨id, none⟩
    else beyond.other op ⟨id, left⟩ ⟨id, right⟩
  else if isOrdered id then
    match left, right with
    | some left, some right => .ok ⟨.boolean, some (accepts op (orderOf id left right))⟩
    | _, _ => .ok ⟨.boolean, none⟩
  else beyond.other op ⟨id, left⟩ ⟨id, right⟩

/-! ## Literals -/

def asDouble : LiteralStorage → Float
  | .int64 value => ofInteger value.toInt
  | .double value => value
  | .bool value => ofInteger (if value then 1 else 0)
  | _ => ofInteger 0

/-- A double outside the range of 64 bits has no defined conversion; it is taken as zero. -/
def asInt64 : LiteralStorage → Int64
  | .int64 value => value
  | .double value => (truncateToInt64 value).getD 0
  | .bool value => if value then 1 else 0
  | _ => 0

def asBool : LiteralStorage → Bool
  | .bool value => value
  | _ => false

def asText : LiteralStorage → String
  | .string value => value
  | _ => ""

/-- A literal's storage in the width of a type other than a decimal; both compilers narrow it alike. -/
def narrow (id : TypeId) (value : LiteralStorage) : Option (Carrier id) :=
  match id with
  | .boolean => some (asBool value)
  | .int32 => wrap .int32 (asInt64 value).toInt
  | .int64 => some (asInt64 value)
  | .uint32 => wrap .uint32 (asInt64 value).toInt
  | .uint64 => wrap .uint64 (asInt64 value).toInt
  | .float32 => some (asDouble value).toFloat32
  | .float64 => some (asDouble value)
  | .string => some (asText value)
  | .date32 => wrap .int32 (asInt64 value).toInt
  | .timestamp => some (asInt64 value)
  | .decimal => none

/-! ## The GPU compiler -/

namespace Gpu

inductive AstOperator
  | add | sub | mul | div
  | equal | notEqual | less | lessEqual | greater | greaterEqual
  | nullLogicalAnd | nullLogicalOr
  | not | isNull | castToInt64 | castToUint64 | castToFloat64
  deriving DecidableEq

inductive TableReference
  | left | right
  deriving DecidableEq

inductive AstExpression
  | columnReference (index : Nat) (table : TableReference)
  | literal (datum : Datum)
  | unary (op : AstOperator) (operand : AstExpression)
  | binary (op : AstOperator) (left right : AstExpression)

/-- The unscaled integer of a decimal literal, in the narrowest width that its precision allows. A double is
rounded to 64 bits; beyond them the rounding has no defined result, and is taken as zero. -/
def decimalRawValue (type : DataType) (value : LiteralStorage) : Except String Int :=
  match type.precision, type.scale with
  | some precision, some scale =>
    let raw : Int :=
      match value with
      | .int64 value => value.toInt * tenTo scale
      | value => (roundToScale scale (asDouble value)).getD 0
    .ok (if precision ≤ 9 then raw.bmod (2 ^ 32) else if precision ≤ 18 then raw.bmod (2 ^ 64)
      else raw.bmod (2 ^ 128))
  | _, _ => .error "DECIMAL type is missing precision/scale"

def makeLiteral (type : DataType) (value : LiteralStorage) (isValid : Bool) : Except String AstExpression :=
  if type.id = .decimal then do
    let raw ← decimalRawValue type value
    return .literal ⟨.decimal, if isValid then some raw else none⟩
  else .ok (.literal ⟨type.id, if isValid then narrow type.id value else none⟩)

def toAstOperator : BinaryOperator → AstOperator
  | .add => .add
  | .subtract => .sub
  | .multiply => .mul
  | .divide => .div
  | .equal => .equal
  | .notEqual => .notEqual
  | .less => .less
  | .lessEqual => .lessEqual
  | .greater => .greater
  | .greaterEqual => .greaterEqual
  | .and => .nullLogicalAnd
  | .or => .nullLogicalOr

/-- With a number of left fields, the columns from it on are those of the right table. -/
def compileColumn (leftFieldCount : Option Nat) (columnIndex : Nat) : AstExpression :=
  match leftFieldCount with
  | none => .columnReference columnIndex .left
  | some count =>
    if columnIndex < count then .columnReference columnIndex .left
    else .columnReference (columnIndex - count) .right

def aggregateMessage : String :=
  "aggregate expressions cannot be compiled as a row-wise GPU expression; they are " ++
    "evaluated separately by the aggregate operators"

def unrecognizedMessage : String :=
  "unrecognized expression type in GPU expression compiler"

/-- The operator that `compile_cast` finds for a target. -/
def castOperator (type : DataType) : Except String AstOperator :=
  match type.id with
  | .int64 => .ok .castToInt64
  | .uint64 => .ok .castToUint64
  | .float64 => .ok .castToFloat64
  | _ => .error ("CAST to " ++ type.toString ++ " is not supported for GPU row-wise expressions " ++
      "(cudf::ast only supports widening casts to INT64/UINT64/FLOAT64)")

/-- Compilation to a cuDF tree, by `compile_binary`, `compile_unary` and their siblings. Negation is subtraction from a
zero of the operand's type, and a test for a present value the negated test for a missing one. -/
def compile (leftFieldCount : Option Nat) : Expression → Except String AstExpression
  | .column _ columnIndex _ => .ok (compileColumn leftFieldCount columnIndex)
  | .literal value type => makeLiteral type value (value ≠ .monostate)
  | .binary op left right _ => do
    let left ← compile leftFieldCount left
    let right ← compile leftFieldCount right
    return .binary (toAstOperator op) left right
  | .unary op operand _ => do
    let compiled ← compile leftFieldCount operand
    match op with
    | .not => return .unary .not compiled
    | .isNull => return .unary .isNull compiled
    | .isNotNull => return .unary .not (.unary .isNull compiled)
    | .negate => return .binary .sub (← makeLiteral operand.resultType (.int64 0) true) compiled
  | .between value lower upper => do
    let value ← compile leftFieldCount value
    let lower ← compile leftFieldCount lower
    let upper ← compile leftFieldCount upper
    return .binary .nullLogicalAnd (.binary .greaterEqual value lower) (.binary .lessEqual value upper)
  | .cast operand type => do
    let operand ← compile leftFieldCount operand
    return .unary (← castOperator type) operand
  | .aggregate .. => .error aggregateMessage
  | .countStar _ => .error aggregateMessage
  | .extract .. => .error unrecognizedMessage
  | .substring .. => .error unrecognizedMessage
  | .like .. => .error unrecognizedMessage
  | .caseWhen .. => .error unrecognizedMessage

/-- What is left open about cuDF: the quotient by zero, which has no defined value, and operators on
floating-point and decimal operands. -/
structure Cudf where
  quotientByZero : (id : TypeId) → Carrier id → Carrier id
  binary : AstOperator → Datum → Datum → Except String Datum
  cast : TypeId → Datum → Except String Datum

def AstOperator.meaning : AstOperator → Option BinaryOperator
  | .add => some .add
  | .sub => some .subtract
  | .mul => some .multiply
  | .div => some .divide
  | .equal => some .equal
  | .notEqual => some .notEqual
  | .less => some .less
  | .lessEqual => some .lessEqual
  | .greater => some .greater
  | .greaterEqual => some .greaterEqual
  | .nullLogicalAnd => some .and
  | .nullLogicalOr => some .or
  | _ => none

def nonMatchingTypes : String := "An AST expression was provided non-matching operand types."
def invalidOperation : String := "Invalid operator for the type of its operand."

/-- Operands of two types are refused. -/
def evaluateBinary (cudf : Cudf) (op : AstOperator) (left right : Datum) : Except String Datum :=
  match op.meaning, right.ofType left.id with
  | some meaning, some right =>
    operate ⟨fun id dividend => .ok ⟨id, some (cudf.quotientByZero id dividend)⟩, fun _ => cudf.binary op⟩
      meaning left.id left.value right
  | some _, none => .error nonMatchingTypes
  | none, _ => .error invalidOperation

/-- A cast wraps a number to the width of its target. Strings, dates and timestamps have no cast. -/
def evaluateCast (cudf : Cudf) (target : TypeId) (operand : Datum) : Except String Datum :=
  match operand with
  | ⟨.string, _⟩ | ⟨.date32, _⟩ | ⟨.timestamp, _⟩ => .error invalidOperation
  | ⟨id, value⟩ =>
    if isInteger target && (isInteger id || id == .boolean) then
      .ok ⟨target, (value.bind (toNumber id)).bind (wrap target)⟩
    else cudf.cast target ⟨id, value⟩

def evaluateUnary (cudf : Cudf) (op : AstOperator) (operand : Datum) : Except String Datum :=
  match op with
  | .not =>
    match operand.ofType .boolean with
    | some value => .ok ⟨.boolean, value.map not⟩
    | none => .error invalidOperation
  | .isNull => .ok ⟨.boolean, some operand.value.isNone⟩
  | .castToInt64 => evaluateCast cudf .int64 operand
  | .castToUint64 => evaluateCast cudf .uint64 operand
  | .castToFloat64 => evaluateCast cudf .float64 operand
  | _ => .error invalidOperation

/-- The value of a tree on one row of each table. -/
def evaluate (cudf : Cudf) (tables : TableReference → List Datum) : AstExpression → Except String Datum
  | .columnReference index table => ((tables table)[index]?).elim (.error "column index out of range") .ok
  | .literal datum => .ok datum
  | .unary op operand => do evaluateUnary cudf op (← evaluate cudf tables operand)
  | .binary op left right => do
    let left ← evaluate cudf tables left
    let right ← evaluate cudf tables right
    evaluateBinary cudf op left right

/-- A row as the tables that a compiled tree refers to. -/
def tablesOf (leftFieldCount : Option Nat) (row : List Datum) : TableReference → List Datum
  | .left => leftFieldCount.elim row row.take
  | .right => leftFieldCount.elim [] row.drop

end Gpu

/-! ## The CPU compiler -/

namespace Cpu

inductive ArrowFunction
  | add | subtract | multiply | divide
  | equal | notEqual | less | lessEqual | greater | greaterEqual
  | andKleene | orKleene
  | invert | negate | isNull | isValid | cast
  | makeStruct | caseWhen | matchLike | year | month | day | utf8SliceCodeunits
  deriving DecidableEq

inductive FunctionOptions
  | none
  | cast (toType : TypeId)
  | makeStruct (fieldNames : List String)
  | matchSubstring (pattern : String)
  | slice (start stop : Int)

mutual

inductive ArrowExpression
  | fieldRef (index : Nat)
  | literal (datum : Datum)
  | call (function : ArrowFunction) (arguments : ArrowArguments) (options : FunctionOptions)

inductive ArrowArguments
  | nil
  | cons (first : ArrowExpression) (rest : ArrowArguments)

end

def unary (function : ArrowFunction) (operand : ArrowExpression) : ArrowExpression :=
  .call function (.cons operand .nil) .none

def binary (function : ArrowFunction) (left right : ArrowExpression) : ArrowExpression :=
  .call function (.cons left (.cons right .nil)) .none

def literalToArrowDatum (value : LiteralStorage) (type : DataType) : Except String Datum :=
  if value = .monostate then .ok ⟨type.id, none⟩
  else if type.id = .decimal then
    .error "DECIMAL literals are not yet supported by the CPU execution backend"
  else .ok ⟨type.id, narrow type.id value⟩

def binaryFunctionName : BinaryOperator → ArrowFunction
  | .add => .add
  | .subtract => .subtract
  | .multiply => .multiply
  | .divide => .divide
  | .equal => .equal
  | .notEqual => .notEqual
  | .less => .less
  | .lessEqual => .lessEqual
  | .greater => .greater
  | .greaterEqual => .greaterEqual
  | .and => .andKleene
  | .or => .orKleene

def extractFunctionName : DatePart → ArrowFunction
  | .year => .year
  | .month => .month
  | .day => .day

def argumentsOf : List ArrowExpression → ArrowArguments
  | [] => .nil
  | first :: rest => .cons first (argumentsOf rest)

/-- `case_when` takes a struct of the conditions and then the results, the `ELSE` last. -/
def caseCall (conditions results : List ArrowExpression) : ArrowExpression :=
  let names := (List.range conditions.length).map (fun index => "cond_" ++ toString index)
  let tests : ArrowExpression := .call .makeStruct (argumentsOf conditions) (.makeStruct names)
  .call .caseWhen (.cons tests (argumentsOf results)) .none

def unrecognizedMessage : String :=
  "unrecognized expression type in CPU expression compiler (IN/DECIMAL are not yet supported " ++
    "by the CPU execution backend -- see docs/ARCHITECTURE.md)"

mutual

/-- Compilation to an Arrow call. Columns are referred to by position. -/
def compileExpressionCpu : Expression → Except String ArrowExpression
  | .column _ columnIndex _ => .ok (.fieldRef columnIndex)
  | .literal value type => do return .literal (← literalToArrowDatum value type)
  | .binary op left right _ => do
    let left ← compileExpressionCpu left
    let right ← compileExpressionCpu right
    return binary (binaryFunctionName op) left right
  | .unary op operand _ => do
    let operand ← compileExpressionCpu operand
    match op with
    | .not => return unary .invert operand
    | .negate => return unary .negate operand
    | .isNull => return unary .isNull operand
    | .isNotNull => return unary .isValid operand
  | .between value lower upper => do
    let value ← compileExpressionCpu value
    let lower ← compileExpressionCpu lower
    let upper ← compileExpressionCpu upper
    return binary .andKleene (binary .greaterEqual value lower) (binary .lessEqual value upper)
  | .cast operand type =>
    if type.id = .decimal ∨ type.id = .string then
      .error ("CAST to " ++ type.toString ++ " is not yet supported by the CPU execution backend")
    else do
      let operand ← compileExpressionCpu operand
      return .call .cast (.cons operand .nil) (.cast type.id)
  | .caseWhen branches _ => do
    let conditions ← compileConditions branches
    let results ← compileResults branches
    return caseCall conditions results
  | .like value pattern negated => do
    let value ← compileExpressionCpu value
    let matched : ArrowExpression := .call .matchLike (.cons value .nil) (.matchSubstring pattern)
    return if negated then unary .invert matched else matched
  | .extract part operand _ => do return unary (extractFunctionName part) (← compileExpressionCpu operand)
  | .substring operand start length _ => do
    let operand ← compileExpressionCpu operand
    return .call .utf8SliceCodeunits (.cons operand .nil) (.slice (start - 1) (start - 1 + length))
  | .aggregate .. => .error unrecognizedMessage
  | .countStar _ => .error unrecognizedMessage

def compileConditions : CaseBranches → Except String (List ArrowExpression)
  | .done => return []
  | .otherwise _ => return []
  | .when condition _ rest => do
    let condition ← compileExpressionCpu condition
    let rest ← compileConditions rest
    return condition :: rest

def compileResults : CaseBranches → Except String (List ArrowExpression)
  | .done => return []
  | .otherwise result => do return [← compileExpressionCpu result]
  | .when _ result rest => do
    let result ← compileExpressionCpu result
    let rest ← compileResults rest
    return result :: rest

end

/-- What is left open about Arrow Compute: every function on arguments beyond the documented rules
above, implicit casts of two types to one among them. -/
structure ArrowCompute where
  other : ArrowFunction → FunctionOptions → List Datum → Except String Datum

def ArrowFunction.meaning : ArrowFunction → Option BinaryOperator
  | .add => some .add
  | .subtract => some .subtract
  | .multiply => some .multiply
  | .divide => some .divide
  | .equal => some .equal
  | .notEqual => some .notEqual
  | .less => some .less
  | .lessEqual => some .lessEqual
  | .greater => some .greater
  | .greaterEqual => some .greaterEqual
  | .andKleene => some .and
  | .orKleene => some .or
  | _ => none

def callBinary (arrow : ArrowCompute) (function : ArrowFunction) (options : FunctionOptions)
    (left right : Datum) : Except String Datum :=
  match function.meaning, right.ofType left.id with
  | some meaning, some value =>
    operate ⟨fun _ _ => .error "divide by zero", fun _ left right => arrow.other function options [left, right]⟩
      meaning left.id left.value value
  | _, _ => arrow.other function options [left, right]

/-- A safe cast: a number that does not fit in its target is an error. -/
def callCast (arrow : ArrowCompute) (toType : TypeId) (operand : Datum) : Except String Datum :=
  if isInteger toType && (isInteger operand.id || operand.id == .boolean) then
    match operand.value.bind (toNumber operand.id) with
    | none => .ok ⟨toType, none⟩
    | some number =>
      if (wrap toType number).bind (toNumber toType) = some number then .ok ⟨toType, wrap toType number⟩
      else .error ("Integer value " ++ toString number ++ " not in range")
  else arrow.other .cast (.cast toType) [operand]

def call (arrow : ArrowCompute) (function : ArrowFunction) (options : FunctionOptions) :
    List Datum → Except String Datum
  | [operand] =>
    match function, options with
    | .invert, options =>
      match operand.ofType .boolean with
      | some value => .ok ⟨.boolean, value.map not⟩
      | none => arrow.other .invert options [operand]
    | .negate, options =>
      if isInteger operand.id then
        let number := operand.value.bind (toNumber operand.id)
        .ok ⟨operand.id, number.bind (fun number => wrap operand.id (-number))⟩
      else arrow.other .negate options [operand]
    | .isNull, _ => .ok ⟨.boolean, some operand.value.isNone⟩
    | .isValid, _ => .ok ⟨.boolean, some operand.value.isSome⟩
    | .cast, .cast toType => callCast arrow toType operand
    | function, options => arrow.other function options [operand]
  | [left, right] => callBinary arrow function options left right
  | arguments => arrow.other function options arguments

mutual

/-- The value of an Arrow expression on one row. -/
def evaluate (arrow : ArrowCompute) (row : List Datum) : ArrowExpression → Except String Datum
  | .fieldRef index => (row[index]?).elim (.error "no match for field reference") .ok
  | .literal datum => .ok datum
  | .call function arguments options => do call arrow function options (← evaluateArguments arrow row arguments)

def evaluateArguments (arrow : ArrowCompute) (row : List Datum) : ArrowArguments → Except String (List Datum)
  | .nil => return []
  | .cons first rest => do
    let first ← evaluate arrow row first
    let rest ← evaluateArguments arrow row rest
    return first :: rest

end

end Cpu

end KernelLake.ExpressionCompilers
