import KernelLake.Expressions

/-!
The parser's untyped syntax trees.

A column is still a name with an optional table qualifier. Expressions are generic in the type of the
statements that occur in them as subqueries, since no traversal of an expression enters one; `IN`
lists and the branches of a `CASE` have list types of their own, as in bound expressions. Operators,
aggregate functions and date parts are those of bound expressions: the parser's enumerations differ
from them in name only. An alias is read from the items of a select list and nowhere else, so it
stands there.
-/

namespace KernelLake.SqlAst

open KernelLake.Types KernelLake.Expressions

inductive AstLiteral
  | integer (value : Int64)
  | float (value : Float)
  | string (value : String)
  | boolean (value : Bool)
  | date (days : Int64)
  | null
  deriving DecidableEq

mutual

inductive AstExpr (Statement : Type)
  | columnRef (name : String) (table : Option String)
  | star
  | literal (value : AstLiteral)
  | binary (op : BinaryOperator) (left right : AstExpr Statement)
  | unary (op : UnaryOperator) (operand : AstExpr Statement)
  | between (value lower upper : AstExpr Statement)
  | aggregate (function : AggregateFunction) (argument : AstExpr Statement)
  | countStar
  | like (value pattern : AstExpr Statement) (negated : Bool)
  | inList (value : AstExpr Statement) (list : AstExprList Statement) (negated : Bool)
  | inSubquery (value : AstExpr Statement) (subquery : Statement) (negated : Bool)
  | caseWhen (condition result : AstExpr Statement) (rest : AstBranches Statement)
  | cast (operand : AstExpr Statement) (typeName : String) (decimalPrecision decimalScale : Int)
  | extract (field : DatePart) (operand : AstExpr Statement)
  | substring (operand : AstExpr Statement) (start length : Int)
  | subquery (statement : Statement)
  | exists (subquery : Statement) (negated : Bool)

inductive AstExprList (Statement : Type)
  | nil
  | cons (head : AstExpr Statement) (tail : AstExprList Statement)

/-- The branches of a `CASE` after its first one. -/
inductive AstBranches (Statement : Type)
  | done
  | otherwise (result : AstExpr Statement)
  | when (condition result : AstExpr Statement) (rest : AstBranches Statement)

end

def AstExprList.isEmpty {Statement : Type} : AstExprList Statement → Bool
  | .nil => true
  | .cons .. => false

structure AstSelectItem (Statement : Type) where
  expr : AstExpr Statement
  outputAlias : Option String := none

structure AstOrderByItem (Statement : Type) where
  expr : AstExpr Statement
  ascending : Bool := true

/-- A `read_parquet(...)` source. -/
structure AstParquetSource where
  paths : List String
  tableAlias : Option String := none
  deriving DecidableEq

/-- One source joined onto those before it. A derived source comes only from decorrelation; it
stands in place of the paths. -/
structure AstJoinStep (Statement : Type) where
  source : AstParquetSource
  condition : AstExpr Statement
  joinType : JoinType := .inner
  derivedSource : Option Statement := none

structure AstJoinClause (Statement : Type) where
  first : AstParquetSource
  steps : List (AstJoinStep Statement)

structure AstSelectStatement where
  selectList : List (AstSelectItem AstSelectStatement)
  source : AstParquetSource := ⟨[], none⟩
  join : Option (AstJoinClause AstSelectStatement) := none
  fromSubquery : Option AstSelectStatement := none
  condition : Option (AstExpr AstSelectStatement) := none
  groupBy : List (AstExpr AstSelectStatement) := []
  having : Option (AstExpr AstSelectStatement) := none
  orderBy : List (AstOrderByItem AstSelectStatement) := []
  limit : Option Int := none

/-- An expression of a statement. -/
abbrev SqlExpr := AstExpr AstSelectStatement

section Traversals

variable {Statement : Type}

mutual

def containsAggregate : AstExpr Statement → Bool
  | .aggregate .. => true
  | .countStar => true
  | .binary _ left right => containsAggregate left || containsAggregate right
  | .unary _ operand => containsAggregate operand
  | .cast operand _ _ _ => containsAggregate operand
  | .extract _ operand => containsAggregate operand
  | .substring operand _ _ => containsAggregate operand
  | .between value lower upper =>
    containsAggregate value || containsAggregate lower || containsAggregate upper
  | .like value pattern _ => containsAggregate value || containsAggregate pattern
  | .inList value list _ => containsAggregate value || listContainsAggregate list
  | .inSubquery value _ _ => containsAggregate value
  | .caseWhen condition result rest =>
    containsAggregate condition || containsAggregate result || branchesContainAggregate rest
  | _ => false

def listContainsAggregate : AstExprList Statement → Bool
  | .nil => false
  | .cons head tail => containsAggregate head || listContainsAggregate tail

def branchesContainAggregate : AstBranches Statement → Bool
  | .done => false
  | .otherwise result => containsAggregate result
  | .when condition result rest =>
    containsAggregate condition || containsAggregate result || branchesContainAggregate rest

end

/-- A column reference as it is written. -/
structure Reference where
  name : String
  table : Option String
  deriving DecidableEq

mutual

/-- The column references of an expression outside its subqueries. -/
def references : AstExpr Statement → List Reference
  | .columnRef name table => [⟨name, table⟩]
  | .star => []
  | .literal _ => []
  | .binary _ left right => references left ++ references right
  | .unary _ operand => references operand
  | .between value lower upper => references value ++ references lower ++ references upper
  | .aggregate _ argument => references argument
  | .countStar => []
  | .like value _ _ => references value
  | .inList value list _ => references value ++ listReferences list
  | .inSubquery value _ _ => references value
  | .caseWhen condition result rest =>
    references condition ++ references result ++ branchReferences rest
  | .cast operand _ _ _ => references operand
  | .extract _ operand => references operand
  | .substring operand _ _ => references operand
  | .subquery _ => []
  | .exists _ _ => []

def listReferences : AstExprList Statement → List Reference
  | .nil => []
  | .cons head tail => references head ++ listReferences tail

def branchReferences : AstBranches Statement → List Reference
  | .done => []
  | .otherwise result => references result
  | .when condition result rest =>
    references condition ++ references result ++ branchReferences rest

end

/-- Top-level `AND` conjuncts, from left to right. -/
def collectAndConjuncts : AstExpr Statement → List (AstExpr Statement)
  | .binary .and left right => collectAndConjuncts left ++ collectAndConjuncts right
  | expression => [expression]

/-- The left-associated conjunction of a list, if it has any member. -/
def rebuildAnd : List (AstExpr Statement) → Option (AstExpr Statement)
  | [] => none
  | first :: rest => some (rest.foldl (.binary .and) first)

end Traversals

end KernelLake.SqlAst
