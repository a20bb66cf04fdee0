import KernelLake.AggregatePlanning
import KernelLake.CompiledStatements

/-!
Correlated scalar subqueries as joins.

A subquery that is compared with an expression, and whose `WHERE` clause has equalities with columns of the sources
around it, becomes a derived table behind these sources. It is grouped by its own columns of the equalities and
joined on the first of them; the others are conditions on the joined rows. In the statement as it is written the
subquery has one value for each row of the sources around it.
-/

namespace KernelLake.ScalarDecorrelation

open KernelLake.Types KernelLake.Expressions KernelLake.Evaluation KernelLake.LogicalPlans KernelLake.SqlAst
open KernelLake.Binder KernelLake.QueryBinding KernelLake.JoinBinding KernelLake.LogicalPlanner
open KernelLake.PlanSemantics KernelLake.PlannedRows KernelLake.JoinConditions KernelLake.ColumnProofs
open KernelLake.AggregatePlanning KernelLake.UnqualifiedNames KernelLake.ExistsRewriting
open KernelLake.CompiledStatements (overTables)

/-! ## Matching -/

def columnRef (reference : Reference) : SqlExpr :=
  .columnRef reference.name reference.table

def asColumnRef : SqlExpr → Option Reference
  | .columnRef name table => some ⟨name, table⟩
  | _ => none

def asSubquery : SqlExpr → Option AstSelectStatement
  | .subquery statement => some statement
  | _ => none

/-- An expression without the qualifiers of its names. -/
def stripTableQualifier (expression : SqlExpr) : SqlExpr :=
  mapReferences (fun reference => { reference with table := none }) expression

def outerAliases (stmt : AstSelectStatement) : List String :=
  match stmt.join with
  | some clause =>
    clause.first.tableAlias.toList ++ clause.steps.flatMap (fun step => step.source.tableAlias.toList)
  | none => stmt.source.tableAlias.toList

def isOuterAlias (table : Option String) (aliases : List String) : Bool :=
  table.any (fun name => aliases.contains name)

structure ScalarSubqueryComparison where
  outerExpr : SqlExpr
  subqueryOnRight : Bool
  op : BinaryOperator
  inner : AstSelectStatement

def matchScalarSubqueryComparison : SqlExpr → Option ScalarSubqueryComparison
  | .binary op left right =>
    if isComparison op then
      match asSubquery left, asSubquery right with
      | none, some inner => some ⟨left, true, op, inner⟩
      | some inner, none => some ⟨right, false, op, inner⟩
      | _, _ => none
    else none
  | _ => none

/-- The outer and the inner column of a correlation: an equality of two columns, one of which has the alias of an
outer source. -/
def correlationKey (outerScope : List String) : SqlExpr → Option (Reference × Reference)
  | .binary .equal left right => do
    let left ← asColumnRef left
    let right ← asColumnRef right
    let leftIsOuter := isOuterAlias left.table outerScope
    let rightIsOuter := isOuterAlias right.table outerScope
    if leftIsOuter && !rightIsOuter then some (left, right)
    else if rightIsOuter && !leftIsOuter then some (right, left)
    else none
  | _ => none

/-! ## The rewriting -/

def keyColumn (number : Nat) : String :=
  "__corr_key_" ++ toString number

def valueColumn : String :=
  "__corr_val_0"

def subqueryAlias (syntheticId : Nat) : String :=
  "__corr_subq_" ++ toString syntheticId

structure DecorrelatedSubquery where
  derivedSelect : AstSelectStatement
  derivedAlias : String
  joinCondition : SqlExpr
  extraWhereConjuncts : List SqlExpr
  valueColumnName : String

/-- Names of a single source lose their qualifiers, which are for joins only. -/
def adapt (inner : AstSelectStatement) (expression : SqlExpr) : SqlExpr :=
  if inner.join.isNone then stripTableQualifier expression else expression

/-- The subquery without its correlation, grouped by the inner columns of the keys. -/
def derivedSelect (inner : AstSelectStatement) (keys : List (Reference × Reference)) (remaining : List SqlExpr)
    (value : SqlExpr) : AstSelectStatement where
  selectList := keys.zipIdx.map (fun (key, number) =>
    ⟨adapt inner (columnRef key.2), some (keyColumn number)⟩) ++ [⟨adapt inner value, some valueColumn⟩]
  source := inner.source
  join := inner.join
  condition := rebuildAnd (remaining.map (adapt inner))
  groupBy := keys.map (fun key => adapt inner (columnRef key.2))

/-- The equality of the outer column of a key with the derived table's column. -/
def keyCondition (derivedAlias : String) (key : Reference × Reference) (number : Nat) : SqlExpr :=
  .binary .equal (columnRef key.1) (columnRef ⟨keyColumn number, some derivedAlias⟩)

def tryDecorrelate (inner : AstSelectStatement) (outerScope : List String) (syntheticId : Nat) :
    Option DecorrelatedSubquery := do
  let [item] := inner.selectList | none
  let condition ← inner.condition
  if inner.fromSubquery.isSome then none
  else if !inner.groupBy.isEmpty || inner.having.isSome || !inner.orderBy.isEmpty || inner.limit.isSome then none
  else if inner.join.isNone && inner.source.tableAlias.isNone then none
  else
    let conjuncts := collectAndConjuncts condition
    let remaining := conjuncts.filter (fun conjunct => (correlationKey outerScope conjunct).isNone)
    let derivedAlias := subqueryAlias syntheticId
    match conjuncts.filterMap (correlationKey outerScope) with
    | [] => none
    | first :: others =>
      some {
        derivedSelect := derivedSelect inner (first :: others) remaining item.expr
        derivedAlias
        joinCondition := keyCondition derivedAlias first 0
        extraWhereConjuncts := (others.zipIdx 1).map (fun (key, number) => keyCondition derivedAlias key number)
        valueColumnName := valueColumn }

/-- A conjunct that becomes a join: the comparison, and what its subquery becomes. -/
def decorrelate (outerScope : List String) (syntheticId : Nat) (conjunct : SqlExpr) :
    Option (ScalarSubqueryComparison × DecorrelatedSubquery) := do
  let found ← matchScalarSubqueryComparison conjunct
  let decorrelated ← tryDecorrelate found.inner outerScope syntheticId
  return (found, decorrelated)

def newStep (decorrelated : DecorrelatedSubquery) : AstJoinStep AstSelectStatement where
  source := ⟨[], some decorrelated.derivedAlias⟩
  condition := decorrelated.joinCondition
  joinType := .inner
  derivedSource := some decorrelated.derivedSelect

/-- The comparison with a column in place of the subquery. -/
def comparedColumn (found : ScalarSubqueryComparison) (decorrelated : DecorrelatedSubquery) : SqlExpr :=
  let valueRef := columnRef ⟨decorrelated.valueColumnName, some decorrelated.derivedAlias⟩
  if found.subqueryOnRight then .binary found.op found.outerExpr valueRef
  else .binary found.op valueRef found.outerExpr

/-- What the conjuncts of a `WHERE` clause become. -/
structure Rewritten where
  conjuncts : List SqlExpr := []
  newSteps : List (AstJoinStep AstSelectStatement) := []
  extraConjuncts : List SqlExpr := []

def rewriteConjuncts (outerScope : List String) (syntheticId : Nat) : List SqlExpr → Rewritten
  | [] => {}
  | conjunct :: rest =>
    match decorrelate outerScope syntheticId conjunct with
    | none =>
      let others := rewriteConjuncts outerScope syntheticId rest
      { others with conjuncts := conjunct :: others.conjuncts }
    | some (found, decorrelated) =>
      let others := rewriteConjuncts outerScope (syntheticId + 1) rest
      { conjuncts := comparedColumn found decorrelated :: others.conjuncts
        newSteps := newStep decorrelated :: others.newSteps
        extraConjuncts := decorrelated.extraWhereConjuncts ++ others.extraConjuncts }

def rewriteCorrelatedScalarSubqueries (stmt : AstSelectStatement) : AstSelectStatement :=
  match stmt.condition with
  | none => stmt
  | some condition =>
    if stmt.fromSubquery.isSome then stmt
    else if stmt.join.isNone && stmt.source.tableAlias.isNone then stmt
    else
      let rewritten := rewriteConjuncts (outerAliases stmt) 0 (collectAndConjuncts condition)
      if rewritten.newSteps.isEmpty then stmt
      else
        let clause := stmt.join.getD ⟨stmt.source, []⟩
        { stmt with
          join := some { clause with steps := clause.steps ++ rewritten.newSteps }
          condition := rebuildAnd (rewritten.conjuncts ++ rewritten.extraConjuncts) }

/-! ## The statement as it is written -/

/-- The number of columns of a row of joined sources. -/
def widthOf (sources : List JoinSource) : Nat :=
  offsetOf sources sources.length

/-- A column behind a row of some width. -/
def behind (width : Nat) : Expression → Expression
  | .column name index type => .column name (width + index) type
  | expression => expression

/-- What a name in a scalar subquery stands for: a column of the subquery's sources, or else one of the sources
around it. A row of those is read behind a row of the subquery's sources. -/
def bindInnerFirst (inner outer : List JoinSource) (reference : Reference) : Except String Expression :=
  let isOwn := match reference.table with
    | some table => inner.any (fun source => source.tableAlias = table)
    | none => inner.any (fun source => (source.schema.findField reference.name).isSome)
  if isOwn then bindColumnRef (.join inner) reference
  else (bindColumnRef (.join outer) reference).map (behind (widthOf inner))

/-- The comparison with a value that stands in a column of its own. -/
def bindComparison (scope : Scope) (found : ScalarSubqueryComparison) (value : Expression) :
    Except String Expression := do
  let operand ← (if isUntypedNull found.outerExpr then .ok (makeNull value.resultType)
    else bind scope false found.outerExpr : Except String Expression)
  if found.subqueryOnRight then combineBinary found.op operand value else combineBinary found.op value operand

section Written

variable (catalog : Catalog) (tables : Tables)

/-- The expression of a subquery that has one row, an aggregate over all rows that pass `WHERE`. -/
def aggregateItem (sub : AstSelectStatement) : Option SqlExpr :=
  match sub.selectList with
  | [item] =>
    if containsAggregate item.expr && sub.fromSubquery.isNone && sub.groupBy.isEmpty && sub.having.isNone &&
        sub.limit.isNone then some item.expr
    else none
  | _ => none

/-- The type of a scalar subquery and its value for each row of the sources around it. -/
def scalarValue (outer : List JoinSource) (sub : AstSelectStatement) : Except String (DataType × (Row → Value)) :=
  match aggregateItem sub with
  | none => .error "the subquery is no aggregate over its rows"
  | some item => do
    let resolve := bindInnerFirst (sourcesOf catalog sub) outer
    let innerRows ← sourceRows catalog tables sub
    let conditions ← (whereConjuncts sub).mapM (bindWith resolve false)
    let value ← bindWith resolve true item
    if referencesUngroupedColumn [] false value then .error ungroupedColumn
    else return (value.resultType, fun row =>
      groupValue ([], (innerRows.map (· ++ row)).filter (passesAll conditions)) value)

/-- Whether a conjunct of `WHERE` is `TRUE`, for each row of the sources. -/
def scalarTest (outer : List JoinSource) (conjunct : SqlExpr) : Except String (Row → Bool) :=
  match matchScalarSubqueryComparison conjunct with
  | some found => do
    let (type, value) ← scalarValue catalog tables outer found.inner
    let compared ← bindComparison (.join outer) found (.column "" (widthOf outer) type)
    return fun row => (eval compared (row ++ [value row])).isTrue
  | none => do
    let bound ← bind (.join outer) false conjunct
    return fun row => (eval bound row).isTrue

/-- The columns and the rows of a statement: the rows of its sources of which each conjunct of `WHERE` is `TRUE`,
and what the other clauses make of them. These are the planner's own, slots of aggregates included. -/
def scalarQuery (stmt : AstSelectStatement) : Except String (Schema × List Row) := do
  let outer := sourcesOf catalog stmt
  let joined ← sourceRows catalog tables stmt
  let tests ← (whereConjuncts stmt).mapM (scalarTest catalog tables outer)
  let query ← bindQueryCommon { stmt with condition := none } (.join outer) (isAggregateStatement stmt)
  return (query.outputSchema, queryRows query (joined.filter (fun row => tests.all (fun test => test row))))

end Written

/-! ## Subqueries that may stand as joins -/

section Kept

variable (catalog : Catalog)

/-- The names of a subquery that are looked up in its own sources: those of its select list and of its conditions,
and the inner columns of its keys. -/
def innerReferences (outerScope : List String) (sub : AstSelectStatement) : List Reference :=
  sub.selectList.flatMap (fun item => references item.expr) ++
    (whereConjuncts sub).flatMap (fun conjunct =>
      ((correlationKey outerScope conjunct).map (fun key => [key.2])).getD (references conjunct))

/-- A subquery with the same value in its derived table: the qualifiers that are left out are its own, keys that
compare equal are identical, and over no rows the value is `NULL`. -/
structure KeepsValue (outer : List JoinSource) (outerScope : List String) (sub derived : AstSelectStatement) :
    Prop where
  overTables : overTables sub = true
  innerKept : ∀ source ∈ sourcesOf catalog sub, keepsRight source.joinType = true
  unshadowed : ∀ source ∈ sourcesOf catalog sub, source.tableAlias ∉ outerScope
  ownQualifiers : sub.join = none → ∀ reference ∈ innerReferences outerScope sub,
    reference.table = none ∨ reference.table = sub.source.tableAlias
  exactKeys : ∀ conjunct ∈ whereConjuncts sub, ∀ key ∈ correlationKey outerScope conjunct, ∀ column,
    bindInnerFirst (sourcesOf catalog sub) outer key.1 = .ok column ∨
      bindInnerFirst (sourcesOf catalog sub) outer key.2 = .ok column → isFloating column.resultType.id = false
  emptyValue : ∃ item value, aggregateItem sub = some item ∧
    bindWith (bindInnerFirst (sourcesOf catalog sub) outer) true item = .ok value ∧
      referencesUngroupedColumn [] false value = false ∧ groupValue ([], []) value = .null
  planned : ∃ query, planStatement catalog derived = .ok (query, catalog.derivedPlan derived) ∧
    Recognised query.groupBy (visitedParts query)

/-- A statement whose subqueries keep their values as joins, and whose other names keep their columns: it has no
`*`, and none of its names is one of a derived table. -/
structure KeepsScalars (stmt : AstSelectStatement) : Prop where
  overTables : overTables stmt = true
  outerKept : ∀ source ∈ sourcesOf catalog stmt, keepsRight source.joinType = true
  noStar : ∀ item ∈ stmt.selectList, isStar item.expr = false
  freshAliases : ∀ source ∈ sourcesOf catalog stmt, ∀ number, source.tableAlias ≠ subqueryAlias number
  names : sameColumns (bindColumnRef (.join (sourcesOf catalog (rewriteCorrelatedScalarSubqueries stmt))))
    (bindColumnRef (.join (sourcesOf catalog stmt))) (outerReferences stmt) = true
  subqueries : ∀ conjunct ∈ whereConjuncts stmt, ∀ found decorrelated,
    decorrelate (outerAliases stmt) 0 conjunct = some (found, decorrelated) →
      KeepsValue catalog (sourcesOf catalog stmt) (outerAliases stmt) found.inner decorrelated.derivedSelect

/-- Whether a statement has a correlated scalar subquery that becomes a join. -/
def hasCorrelated (stmt : AstSelectStatement) : Bool :=
  (whereConjuncts stmt).any (fun conjunct => (decorrelate (outerAliases stmt) 0 conjunct).isSome)

end Kept

end KernelLake.ScalarDecorrelation
