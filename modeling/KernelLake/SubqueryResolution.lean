import KernelLake.Binder
import KernelLake.Library.Decimals
import KernelLake.Library.DoubleValues

/-!
Subqueries that are run before the statement around them is bound.

A scalar subquery in `WHERE` or `HAVING` is replaced by a literal, and an `IN` subquery in `WHERE` by a list of
literals; an empty list leaves no predicate to bind, so it becomes a truth value at once. Running a subquery is a
parameter: only its result matters here.
-/

namespace KernelLake.SubqueryResolution

open KernelLake.Types KernelLake.Expressions KernelLake.Evaluation KernelLake.SqlAst
open KernelLake.Library.Decimals KernelLake.Library.DoubleValues

/-! ## Results -/

/-- One value of a result column. Of the present ones, three Arrow types have a literal. -/
inductive ArrowScalar
  | missing
  | double (value : Float)
  | int64 (value : Int64)
  | string (value : String)
  | other (typeText : String) (value : Value)

def ArrowScalar.value : ArrowScalar → Value
  | .missing => .null
  | .double value => .double value
  | .int64 value => .int value.toInt
  | .string value => .string value
  | .other _ value => value

structure RecordBatch where
  numRows : Nat
  columns : List (List ArrowScalar)
  even : ∀ column ∈ columns, column.length = numRows

def RecordBatch.firstColumn (batch : RecordBatch) : List ArrowScalar :=
  batch.columns.headD []

structure QueryResult where
  fieldCount : Nat
  batches : List RecordBatch
  fitting : ∀ batch ∈ batches, batch.columns.length = fieldCount

/-- The values of a result with one column. -/
def QueryResult.values (result : QueryResult) : List Value :=
  result.batches.flatMap (fun batch => batch.firstColumn.map ArrowScalar.value)

def scalarToLiteral : ArrowScalar → Except String AstLiteral
  | .missing => .ok .null
  | .double value => .ok (.float value)
  | .int64 value => .ok (.integer value)
  | .string value => .ok (.string value)
  | .other typeText _ => .error ("a subquery returned a " ++ typeText ++ " value, which isn't supported " ++
      "(only DOUBLE/INT64/STRING -- the result types SUM/COUNT/MIN/MAX/AVG can actually produce, or a plain " ++
      "grouped INT64/DOUBLE/STRING column -- are)")

section Evaluation

variable {Statement : Type} (runSubquery : Statement → Except String QueryResult)

def evaluateScalarSubquery (subquery : Statement) : Except String AstLiteral := do
  let result ← runSubquery subquery
  let totalRows := (result.batches.map RecordBatch.numRows).sum
  if result.fieldCount ≠ 1 then
    .error ("a HAVING subquery must return exactly one column, got " ++ toString result.fieldCount)
  else if totalRows ≠ 1 then
    .error ("a HAVING subquery must return exactly one row, got " ++ toString totalRows)
  else
    match (result.batches.find? (fun batch => 0 < batch.numRows)).bind (·.firstColumn.head?) with
    | some scalar => scalarToLiteral scalar
    | none => .error "failed to read a HAVING subquery's scalar result"

def evaluateListSubquery (subquery : Statement) : Except String (List AstLiteral) := do
  let result ← runSubquery subquery
  if result.fieldCount ≠ 1 then
    .error ("an IN (SELECT ...) subquery must return exactly one column, got " ++ toString result.fieldCount)
  else (result.batches.flatMap RecordBatch.firstColumn).mapM scalarToLiteral

end Evaluation

/-! ## Replacement -/

section Replacement

variable {Statement : Type}

section Traversal

variable (onSubquery : Statement → Except String (AstExpr Statement))
variable (onMembership : AstExpr Statement → Statement → Bool → Except String (AstExpr Statement))

mutual

/-- Replacement of the subqueries of an expression. Those of `EXISTS` stay. -/
def replaceSubqueries : AstExpr Statement → Except String (AstExpr Statement)
  | .subquery statement => onSubquery statement
  | .inSubquery value subquery negated => do
    onMembership (← replaceSubqueries value) subquery negated
  | .binary op left right => do return .binary op (← replaceSubqueries left) (← replaceSubqueries right)
  | .unary op operand => do return .unary op (← replaceSubqueries operand)
  | .cast operand typeName precision scale => do
    return .cast (← replaceSubqueries operand) typeName precision scale
  | .extract field operand => do return .extract field (← replaceSubqueries operand)
  | .substring operand start length => do return .substring (← replaceSubqueries operand) start length
  | .between value lower upper => do
    return .between (← replaceSubqueries value) (← replaceSubqueries lower) (← replaceSubqueries upper)
  | .like value pattern negated => do
    return .like (← replaceSubqueries value) (← replaceSubqueries pattern) negated
  | .inList value list negated => do
    return .inList (← replaceSubqueries value) (← replaceSubqueriesInList list) negated
  | .caseWhen condition result rest => do
    return .caseWhen (← replaceSubqueries condition) (← replaceSubqueries result)
      (← replaceSubqueriesInBranches rest)
  | .aggregate function argument => do return .aggregate function (← replaceSubqueries argument)
  | .columnRef name table => .ok (.columnRef name table)
  | .star => .ok .star
  | .literal value => .ok (.literal value)
  | .countStar => .ok .countStar
  | .exists subquery negated => .ok (.exists subquery negated)

def replaceSubqueriesInList : AstExprList Statement → Except String (AstExprList Statement)
  | .nil => .ok .nil
  | .cons head tail => do return .cons (← replaceSubqueries head) (← replaceSubqueriesInList tail)

def replaceSubqueriesInBranches : AstBranches Statement → Except String (AstBranches Statement)
  | .done => .ok .done
  | .otherwise result => do return .otherwise (← replaceSubqueries result)
  | .when condition result rest => do
    return .when (← replaceSubqueries condition) (← replaceSubqueries result)
      (← replaceSubqueriesInBranches rest)

end

end Traversal

/-- Every scalar subquery replaced by its literal. -/
def resolveSubqueries (evaluate : Statement → Except String AstLiteral) :
    AstExpr Statement → Except String (AstExpr Statement) :=
  replaceSubqueries (fun statement => do return .literal (← evaluate statement))
    (fun value subquery negated => .ok (.inSubquery value subquery negated))

def literalList : List AstLiteral → AstExprList Statement
  | [] => .nil
  | value :: values => .cons (.literal value) (literalList values)

/-- What an `IN` predicate becomes: nothing is in an empty list, whatever the value. -/
def listPredicate (value : AstExpr Statement) (literals : List AstLiteral) (negated : Bool) : AstExpr Statement :=
  if literals.isEmpty then .literal (.boolean negated) else .inList value (literalList literals) negated

/-- Every `IN` subquery replaced by a list of literals. -/
def resolveInSubqueries (evaluate : Statement → Except String (List AstLiteral)) :
    AstExpr Statement → Except String (AstExpr Statement) :=
  replaceSubqueries (fun statement => .ok (.subquery statement))
    (fun value subquery negated => do return listPredicate value (← evaluate subquery) negated)

end Replacement

/-- What `plan_logical` does first: a statement with its subqueries run, the scalar ones of `HAVING` and `WHERE`, and
the `IN` ones of `WHERE`. -/
def resolveStatement (runSubquery : AstSelectStatement → Except String QueryResult) (stmt : AstSelectStatement) :
    Except String AstSelectStatement := do
  let having ← stmt.having.mapM (resolveSubqueries (evaluateScalarSubquery runSubquery))
  let scalars ← stmt.condition.mapM (resolveSubqueries (evaluateScalarSubquery runSubquery))
  let condition ← scalars.mapM (resolveInSubqueries (evaluateListSubquery runSubquery))
  return { stmt with condition, having }

/-! ## The meaning of `IN` -/

/-- Whether any of some truth values is `TRUE`, in three-valued logic; errors are stronger than `NULL`. -/
def anyTrue (truths : List Value) : Value :=
  if .bool true ∈ truths then .bool true
  else if .raised ∈ truths then .raised
  else if .null ∈ truths then .null
  else .bool false

/-- SQL's equality of two values. A decimal and a double are equal if they are the same number. -/
def sqlEquals (left right : Value) : Value :=
  match left, right with
  | .decimal unscaled scale, .double value => .bool (exactValue value = some (scaled unscaled scale))
  | left, right => (compareValues left right).truth .equal

/-- SQL's `value [NOT] IN (list)`. -/
def sqlIn (negated : Bool) (value : Value) (list : List Value) : Value :=
  if negated then notValue (anyTrue (list.map (sqlEquals value))) else anyTrue (list.map (sqlEquals value))

end KernelLake.SubqueryResolution
