import KernelLake.Evaluation
import KernelLake.ExpressionText
import KernelLake.LogicalPlans
import KernelLake.SqlAst

/-!
Binding: names become column indices and every expression gets a type.

A query is bound against one table or against a chain of joined sources. In a chain the columns of
all sources are numbered one after the other, except that a source of a semi or anti join takes up no
numbers: the columns of the next source start where its own start.
-/

namespace KernelLake.Binder

open KernelLake.Types KernelLake.Expressions KernelLake.Evaluation KernelLake.ExpressionText
open KernelLake.LogicalPlans KernelLake.SqlAst KernelLake.Library.Doubles

/-! ## Types -/

def isNumeric : TypeId → Bool
  | .int32 | .int64 | .uint32 | .uint64 | .float32 | .float64 | .decimal => true
  | _ => false

def isSigned (id : TypeId) : Bool :=
  id = .int32 || id = .int64

def isUnsigned (id : TypeId) : Bool :=
  id = .uint32 || id = .uint64

/-- The types of two operands are one type, nullability aside. -/
def sameKind (first second : DataType) : Bool :=
  first.id = second.id && first.precision = second.precision && first.scale = second.scale

/-- The numeric type in which two numeric types meet. -/
def promoteNumeric (a b : DataType) : Except String DataType :=
  let nullable := a.nullable || b.nullable
  if a.id = .decimal ∨ b.id = .decimal then
    if a.id = .decimal ∧ b.id = .decimal then
      if a.precision = b.precision ∧ a.scale = b.scale then
        .ok ⟨a.id, nullable, a.precision, a.scale⟩
      else .error ("mixing two DECIMAL types with different precision/scale is not yet supported (" ++
        a.toString ++ " vs. " ++ b.toString ++ ")")
    else
      let decimalSide := if a.id = .decimal then a else b
      .ok ⟨decimalSide.id, nullable, decimalSide.precision, decimalSide.scale⟩
  else if isFloating a.id || isFloating b.id then .ok (float64Type nullable)
  else if (isSigned a.id && isUnsigned b.id) || (isUnsigned a.id && isSigned b.id) then
    let signedSide := if isSigned a.id then a else b
    let unsignedSide := if isUnsigned a.id then a else b
    .error ("mixing signed (" ++ signedSide.toString ++ ") and unsigned (" ++ unsignedSide.toString ++
      ") integer types is not yet supported -- a negative value on the signed side would silently " ++
      "wrap around when cast to match the unsigned side; wrap the signed side in an explicit CAST if " ++
      "you know it is always non-negative")
  else if a.id = .uint64 ∨ b.id = .uint64 then .ok (uint64Type nullable)
  else if a.id = .int64 ∨ b.id = .int64 then .ok (int64Type nullable)
  else if a.id = .uint32 ∨ b.id = .uint32 then .ok (uint32Type nullable)
  else .ok (int32Type nullable)

def resolveCastTypeName (name : String) (precision scale : Int) (nullable : Bool) :
    Except String DataType :=
  if name = "BIGINT" then .ok (int64Type nullable)
  else if name = "INT" then .ok (int32Type nullable)
  else if name = "BOOLEAN" then .ok (booleanType nullable)
  else if name = "DOUBLE" then .ok (float64Type nullable)
  else if name = "FLOAT" then .ok (float32Type nullable)
  else if name = "DATE" then .ok (date32Type nullable)
  else if name = "DATETIME" then .ok (timestampType nullable)
  else if name = "VARCHAR" then .ok (stringType nullable)
  else if name = "DECIMAL" then
    if precision ≤ 0 then
      .error "CAST to DECIMAL requires explicit precision and scale, e.g. DECIMAL(10, 2)"
    else if 38 < precision then
      .error ("DECIMAL precision must be between 1 and 38, got " ++ toString precision)
    else if scale < 0 ∨ precision < scale then
      .error ("DECIMAL scale must be between 0 and precision (" ++ toString precision ++ "), got " ++
        toString scale)
    else .ok (decimalType precision scale nullable)
  else .error ("CAST to unknown type '" ++ name ++ "'")

def literalMagnitude : LiteralStorage → Float
  | .int64 value => ofInteger value.toInt
  | .double value => value
  | _ => ofInteger 0

def absDouble (value : Float) : Float :=
  if compareDoubles value (ofInteger 0) = some .lt then -value else value

/-- Whether a literal has more digits than a decimal type, compared as doubles. -/
def exceedsDecimal (value : LiteralStorage) (target : DataType) : Bool :=
  compareDoubles (absDouble (literalMagnitude value) * ofInteger (tenTo (target.scale.getD 0)))
    (ofInteger (tenTo (target.precision.getD 0)) - ofInteger 1) = some .gt

/-- A numeric literal becomes a decimal in place; anything else that meets a decimal is rejected. -/
def castIfNeeded (expression : Expression) (target : DataType) : Except String Expression :=
  let current := expression.resultType
  if sameKind current target then .ok expression
  else if target.id = .decimal ∧ current.id ≠ .decimal then
    match expression with
    | .literal value _ =>
      if value ≠ .monostate ∧ exceedsDecimal value target = true then
        .error ("numeric literal does not fit in DECIMAL(" ++ toString (target.precision.getD 0) ++ ", " ++
          toString (target.scale.getD 0) ++ ")")
      else .ok (.literal value target)
    | _ => .error ("mixing DECIMAL with a non-literal " ++ current.toString ++
        " is not yet supported -- wrap it in an explicit CAST(... AS DECIMAL(p, s))")
  else .ok (.cast expression target)

/-! ## Operators -/

def combineBinary (op : BinaryOperator) (left right : Expression) : Except String Expression :=
  let leftType := left.resultType
  let rightType := right.resultType
  let resultNullable := leftType.nullable || rightType.nullable
  if isArithmetic op then
    if !isNumeric leftType.id || !isNumeric rightType.id then
      .error ("arithmetic operator '" ++ op.toString ++ "' requires numeric operands, got " ++
        leftType.toString ++ " and " ++ rightType.toString)
    else do
      let resultType ← promoteNumeric leftType rightType
      return .binary op (← castIfNeeded left resultType) (← castIfNeeded right resultType) resultType
  else if isLogical op then
    if leftType.id ≠ .boolean ∨ rightType.id ≠ .boolean then
      .error ("AND/OR require boolean operands, got " ++ leftType.toString ++ " and " ++
        rightType.toString)
    else .ok (.binary op left right (booleanType resultNullable))
  else if sameKind leftType rightType then .ok (.binary op left right (booleanType resultNullable))
  else if isNumeric leftType.id && isNumeric rightType.id then do
    let common ← promoteNumeric leftType rightType
    return .binary op (← castIfNeeded left common) (← castIfNeeded right common)
      (booleanType resultNullable)
  else .error ("incompatible comparison between " ++ leftType.toString ++ " and " ++ rightType.toString)

/-- `bind_node` of a unary operator, over its bound operand. The definitions below are the other cases of
`bind_node` in the same way. -/
def combineUnary (op : UnaryOperator) (operand : Expression) : Except String Expression :=
  let type := operand.resultType
  match op with
  | .not =>
    if type.id ≠ .boolean then .error ("NOT requires a boolean operand, got " ++ type.toString)
    else .ok (.unary .not operand type)
  | .negate =>
    if !isNumeric type.id then
      .error ("unary '-' requires a numeric operand, got " ++ type.toString)
    else if isUnsigned type.id then
      .error ("unary '-' is not supported on an unsigned operand (" ++ type.toString ++
        ") -- it would silently wrap around instead of producing a negative value")
    else .ok (.unary .negate operand type)
  | .isNull => .ok (.unary .isNull operand (booleanType false))
  | .isNotNull => .ok (.unary .isNotNull operand (booleanType false))

/-- A bound of a `BETWEEN` in a type that its value can be compared with. -/
def unifyBound (value bound : Expression) (side : String) : Except String Expression :=
  let valueType := value.resultType
  let boundType := bound.resultType
  if sameKind valueType boundType then .ok bound
  else if isNumeric valueType.id && isNumeric boundType.id then do
    castIfNeeded bound (← promoteNumeric valueType boundType)
  else .error ("BETWEEN " ++ side ++ " bound type " ++ boundType.toString ++
    " is incompatible with value type " ++ valueType.toString)

def combineBetween (value lower upper : Expression) : Except String Expression := do
  let lower ← unifyBound value lower "lower"
  let upper ← unifyBound value upper "upper"
  if isNumeric value.resultType.id then do
    let common ← promoteNumeric (← promoteNumeric value.resultType lower.resultType) upper.resultType
    return .between (← castIfNeeded value common) (← castIfNeeded lower common)
      (← castIfNeeded upper common)
  else return .between value lower upper

def combineAggregate (function : AggregateFunction) (argument : Expression) : Except String Expression :=
  let type := argument.resultType
  match function with
  | .count => .ok (.aggregate .count argument (int64Type false))
  | .countDistinct => .ok (.aggregate .countDistinct argument (int64Type false))
  | .sum =>
    if !isNumeric type.id then .error ("SUM requires a numeric argument, got " ++ type.toString)
    else if type.id = .decimal then
      .ok (.aggregate .sum argument ⟨.decimal, true, type.precision, type.scale⟩)
    else do
      let resultType :=
        if isFloating type.id then float64Type true
        else if type.id = .uint64 then uint64Type true else int64Type true
      return .aggregate .sum (← castIfNeeded argument resultType) resultType
  | .avg =>
    if !isNumeric type.id then .error ("AVG requires a numeric argument, got " ++ type.toString)
    else if type.id = .decimal then
      .error "AVG over DECIMAL is not yet supported -- CAST the argument to DOUBLE first"
    else .ok (.aggregate .avg argument (float64Type true))
  | .min => .ok (.aggregate .min argument ⟨type.id, true, type.precision, type.scale⟩)
  | .max => .ok (.aggregate .max argument ⟨type.id, true, type.precision, type.scale⟩)

def combineLike {Statement : Type} (value : Expression) (pattern : AstExpr Statement) (negated : Bool) :
    Except String Expression :=
  if value.resultType.id ≠ .string then
    .error ("LIKE requires a STRING operand, got " ++ value.resultType.toString)
  else
    match pattern with
    | .literal (.string text) => .ok (.like value text negated)
    | _ => .error "LIKE pattern must be a string literal"

def combineExtract (part : DatePart) (operand : Expression) : Except String Expression :=
  let type := operand.resultType
  if type.id ≠ .date32 ∧ type.id ≠ .timestamp then
    .error ("EXTRACT requires a DATE or TIMESTAMP operand, got " ++ type.toString)
  else .ok (.extract part operand (int64Type type.nullable))

def combineSubstring (operand : Expression) (start length : Int) : Except String Expression :=
  let type := operand.resultType
  if type.id ≠ .string then .error ("SUBSTRING requires a STRING operand, got " ++ type.toString)
  else if start < 1 then
    .error "SUBSTRING's start argument must be >= 1 (SQL's own 1-based convention)"
  else if length < 0 then .error "SUBSTRING's length argument must be >= 0"
  else .ok (.substring operand start length (stringType type.nullable))

def checkCondition (condition : Expression) : Except String Expression :=
  if condition.resultType.id ≠ .boolean then
    .error ("CASE WHEN condition must be boolean, got " ++ condition.resultType.toString)
  else .ok condition

/-- The type of the branches so far together with one more. -/
def unifyBranch (common branch : DataType) : Except String DataType :=
  if branch.id = common.id then .ok common
  else if isNumeric common.id && isNumeric branch.id then promoteNumeric common branch
  else .error ("CASE branches have incompatible result types: " ++ common.toString ++ " and " ++
    branch.toString)

def castBranches (common : DataType) :
    List (Expression × Expression) → Option Expression → Except String CaseBranches
  | [], none => return .done
  | [], some result => return .otherwise (← castIfNeeded result common)
  | (condition, result) :: rest, otherwise => do
    return .when condition (← castIfNeeded result common) (← castBranches common rest otherwise)

/-- A `CASE` is nullable if a branch is or if it has no `ELSE`. -/
def combineCase (first : Expression × Expression) (others : List (Expression × Expression))
    (otherwise : Option Expression) : Except String Expression := do
  let types := others.map (fun branch => branch.2.resultType) ++ otherwise.toList.map Expression.resultType
  let common ← types.foldlM unifyBranch first.2.resultType
  let nullable :=
    first.2.resultType.nullable || otherwise.isNone || types.any DataType.nullable
  let common := { common with nullable }
  return .caseWhen (← castBranches common (first :: others) otherwise) common

/-! ## Expressions -/

def bindLiteral : AstLiteral → Expression
  | .integer value => makeInt64 value
  | .float value => makeFloat64 value
  | .string value => makeString value
  | .boolean value => makeBool value
  | .date days => makeDate32 days.toInt32
  | .null => makeNull (int64Type true)

section Expressions

variable {Statement : Type}

def isUntypedNull : AstExpr Statement → Bool
  | .literal .null => true
  | _ => false

def noAggregates : String := "aggregate functions are not allowed here (WHERE/GROUP BY)"

variable (resolve : Reference → Except String Expression)

mutual

/-- `bind_node`, with `resolve` in place of the column lookup. -/
def bindWith (allowAggregates : Bool) : AstExpr Statement → Except String Expression
  | .columnRef name table => resolve ⟨name, table⟩
  | .star => .error "'*' is only valid as a whole SELECT-list item"
  | .literal value => .ok (bindLiteral value)
  | .binary op left right =>
    if isUntypedNull left && !isUntypedNull right then do
      let right' ← bindWith allowAggregates right
      combineBinary op (makeNull right'.resultType) right'
    else if isUntypedNull right && !isUntypedNull left then do
      let left' ← bindWith allowAggregates left
      combineBinary op left' (makeNull left'.resultType)
    else do
      let left' ← bindWith allowAggregates left
      let right' ← bindWith allowAggregates right
      combineBinary op left' right'
  | .unary op operand => do combineUnary op (← bindWith allowAggregates operand)
  | .between value lower upper => do
    let value' ← bindWith allowAggregates value
    let lower' ← bindWith allowAggregates lower
    let upper' ← bindWith allowAggregates upper
    combineBetween value' lower' upper'
  | .aggregate function argument =>
    if !allowAggregates then .error noAggregates
    else if containsAggregate argument then .error "aggregate functions cannot be nested"
    else do combineAggregate function (← bindWith false argument)
  | .countStar => if !allowAggregates then .error noAggregates else .ok (.countStar (int64Type false))
  | .like value pattern negated => do
    combineLike (← bindWith allowAggregates value) pattern negated
  | .inList value list negated =>
    if list.isEmpty then .error "IN requires at least one value"
    else do
      let value' ← bindWith allowAggregates value
      let result ← bindItems allowAggregates value' none list
      if negated then return .unary .not (result.getD value') (booleanType false)
      else return result.getD value'
  | .inSubquery .. => .error ("IN (SELECT ...) is only supported as a WHERE-clause predicate over a " ++
      "non-correlated subquery returning a single column (e.g. 'WHERE x IN (SELECT ...)'), not here")
  | .caseWhen condition result rest => do
    let condition' ← checkCondition (← bindWith allowAggregates condition)
    let result' ← bindWith allowAggregates result
    let (others, otherwise) ← bindBranches allowAggregates rest
    combineCase (condition', result') others otherwise
  | .cast operand typeName precision scale => do
    let operand' ← bindWith allowAggregates operand
    return .cast operand' (← resolveCastTypeName typeName precision scale operand'.resultType.nullable)
  | .extract part operand => do combineExtract part (← bindWith allowAggregates operand)
  | .substring operand start length => do
    combineSubstring (← bindWith allowAggregates operand) start length
  | .subquery _ => .error ("subqueries are only supported as a non-correlated scalar operand inside " ++
      "HAVING or WHERE (e.g. 'HAVING SUM(x) > (SELECT ...)' or 'WHERE x > (SELECT ...)'), not here")
  | .exists .. => .error ("EXISTS/NOT EXISTS is only supported as a top-level WHERE AND-conjunct, with " ++
      "a non-correlated-beyond-a-single-equality-key subquery over one aliased source (e.g. 'WHERE ... " ++
      "AND EXISTS (SELECT * FROM b WHERE b.k = a.k AND <predicate over b only>)')")

/-- `bind_node` of an `IN` list: the disjunction of the value's comparisons with the items. -/
def bindItems (allowAggregates : Bool) (value : Expression) (result : Option Expression) :
    AstExprList Statement → Except String (Option Expression)
  | .nil => return result
  | .cons item rest => do
    let item' ← (if isUntypedNull item then .ok (makeNull value.resultType)
      else bindWith allowAggregates item : Except String Expression)
    let comparison ← combineBinary .equal value item'
    let result' ← result.elim (pure comparison) (combineBinary .or · comparison)
    bindItems allowAggregates value (some result') rest

def bindBranches (allowAggregates : Bool) :
    AstBranches Statement → Except String (List (Expression × Expression) × Option Expression)
  | .done => return ([], none)
  | .otherwise result => do return ([], some (← bindWith allowAggregates result))
  | .when condition result rest => do
    let condition' ← checkCondition (← bindWith allowAggregates condition)
    let result' ← bindWith allowAggregates result
    let (others, otherwise) ← bindBranches allowAggregates rest
    return ((condition', result') :: others, otherwise)

end

end Expressions

/-! ## Names -/

/-- A source of a join chain, with the kind of join that brought it in. -/
structure JoinSource where
  tableAlias : String
  schema : Schema
  joinType : JoinType
  deriving DecidableEq

/-- What the names of a query are looked up in. -/
inductive Scope
  | table (schema : Schema)
  | join (sources : List JoinSource)
  deriving DecidableEq

/-- Whether a join delivers columns of its right side. -/
def keepsRight : JoinType → Bool
  | .leftSemi => false
  | .leftAnti => false
  | _ => true

/-- By how much a source moves the columns of the sources after it. -/
def JoinSource.span (source : JoinSource) : Nat :=
  if keepsRight source.joinType then source.schema.length else 0

/-- The fields of a schema with their positions from `offset` on. -/
def fieldsFrom (offset : Nat) (schema : Schema) : List (Field × Nat) :=
  schema.zipIdx offset

def sourceFields (offset : Nat) : List JoinSource → List (Field × Nat)
  | [] => []
  | source :: rest => fieldsFrom offset source.schema ++ sourceFields (offset + source.span) rest

/-- What `*` stands for. -/
def allFieldsWithIndex : Scope → List (Field × Nat)
  | .table schema => fieldsFrom 0 schema
  | .join sources => sourceFields 0 sources

def ambiguousColumn (name first second : String) : String :=
  "ambiguous column '" ++ name ++ "' (present in more than one JOIN source; qualify it with " ++ first ++
    "." ++ name ++ " or " ++ second ++ "." ++ name ++ ")"

/-- The one position of an unqualified name among the sources, with its source's alias. -/
def findPlain (name : String) (offset : Nat) (found : Option (Nat × String)) :
    List JoinSource → Except String (Option (Nat × String))
  | [] => return found
  | source :: rest =>
    match source.schema.findField name with
    | none => findPlain name (offset + source.span) found rest
    | some index =>
      match found with
      | some (_, firstAlias) => .error (ambiguousColumn name firstAlias source.tableAlias)
      | none =>
        findPlain name (offset + source.span) (some (offset + index, source.tableAlias)) rest

def findFieldByPlainName (scope : Scope) (name : String) : Except String (Option Nat) :=
  match scope with
  | .table schema => return schema.findField name
  | .join sources => do return (← findPlain name 0 none sources).map Prod.fst

def unknownColumn (name : String) : String :=
  "unknown column '" ++ name ++ "'"

def resolveColumn (schema : Schema) (offset : Nat) (name : String) : Except String Expression :=
  match schema.findField name with
  | none => .error (unknownColumn name)
  | some index =>
    match schema[index]? with
    | none => .error (unknownColumn name)
    | some field => .ok (.column field.name (offset + index) field.type)

def resolveQualified (table name : String) (offset : Nat) : List JoinSource → Option (Except String Expression)
  | [] => none
  | source :: rest =>
    if source.tableAlias = table then some (resolveColumn source.schema offset name)
    else resolveQualified table name (offset + source.span) rest

/-- The column at a known position, looked up again in the first source that reaches that far. -/
def resolveAt (position : Nat) (name : String) (offset : Nat) : List JoinSource → Except String Expression
  | [] => .error "unreachable: combined_index did not fall within any JOIN source's field range"
  | source :: rest =>
    if position < offset + source.schema.length then resolveColumn source.schema offset name
    else resolveAt position name (offset + source.span) rest

def knownAliases (sources : List JoinSource) : String :=
  String.intercalate ", " (sources.map (fun source => "'" ++ source.tableAlias ++ "'"))

/-- `bind_node` of a column reference. -/
def bindColumnRef (scope : Scope) (reference : Reference) : Except String Expression :=
  match scope, reference.table with
  | .table schema, none => resolveColumn schema 0 reference.name
  | .table _, some table => .error ("qualified column reference '" ++ table ++ "." ++ reference.name ++
      "' is only valid in a JOIN query")
  | .join sources, some table =>
    (resolveQualified table reference.name 0 sources).getD
      (.error ("unknown table qualifier '" ++ table ++ "' (expected one of: " ++ knownAliases sources ++ ")"))
  | .join sources, none => do
    match ← findPlain reference.name 0 none sources with
    | none => .error (unknownColumn reference.name)
    | some (position, _) => resolveAt position reference.name 0 sources

def bind {Statement : Type} (scope : Scope) (allowAggregates : Bool) (expression : AstExpr Statement) :
    Except String Expression :=
  bindWith (bindColumnRef scope) allowAggregates expression

end KernelLake.Binder
