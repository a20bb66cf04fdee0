import KernelLake.JoinConditions

/-!
`EXISTS` as a join.

Each `EXISTS` among the conjuncts of a `WHERE` clause becomes a semi join behind the sources of the statement, each
`NOT EXISTS` an anti join, with the subquery's own `WHERE` as the `ON` condition. All names are then looked up in
one list of sources. In the statement as it is written a name in a subquery belongs to the subquery's source first,
and no other name sees that source; the subquery is evaluated for each row of the sources around it.
-/

namespace KernelLake.ExistsRewriting

open KernelLake.Types KernelLake.Expressions KernelLake.Evaluation KernelLake.LogicalPlans KernelLake.SqlAst
open KernelLake.Binder KernelLake.QueryBinding KernelLake.JoinBinding KernelLake.LogicalPlanner
open KernelLake.PlanSemantics KernelLake.PlannedRows KernelLake.JoinConditions

/-! ## The rewriting -/

def asExists {Statement : Type} : AstExpr Statement → Option (Statement × Bool)
  | .exists subquery negated => some (subquery, negated)
  | _ => none

/-- The join step that a conjunct becomes: an `EXISTS` over one aliased source with nothing but a `WHERE` clause. -/
def rewrittenStep (conjunct : SqlExpr) : Option (AstJoinStep AstSelectStatement) := do
  let (sub, negated) ← asExists conjunct
  let condition ← sub.condition
  if sub.join.isNone && sub.fromSubquery.isNone && sub.source.tableAlias.isSome && sub.groupBy.isEmpty &&
      sub.having.isNone && sub.orderBy.isEmpty && sub.limit.isNone then
    some { source := sub.source, condition, joinType := if negated then .leftAnti else .leftSemi }
  else none

def rewriteExistsSubqueries (stmt : AstSelectStatement) : AstSelectStatement :=
  match stmt.condition with
  | none => stmt
  | some condition =>
    if stmt.fromSubquery.isSome then stmt
    else if stmt.join.isNone && stmt.source.tableAlias.isNone then stmt
    else
      let conjuncts := collectAndConjuncts condition
      let remaining := conjuncts.filter (fun conjunct => (rewrittenStep conjunct).isNone)
      let newSteps := conjuncts.filterMap rewrittenStep
      if newSteps.isEmpty then stmt
      else
        let clause := stmt.join.getD ⟨stmt.source, []⟩
        { stmt with
          join := some { clause with steps := clause.steps ++ newSteps }
          condition := rebuildAnd remaining }

/-! ## Planning -/

/-- What the sources of statements are: the tables at their paths and the plans of derived tables. -/
structure Catalog where
  schema : List String → Schema
  partitionColumns : List String → List PartitionColumn
  derivedPlan : AstSelectStatement → LogicalPlan

section Planning

variable (catalog : Catalog)

def Catalog.table (paths : List String) : JoinInput :=
  .table (catalog.schema paths) (catalog.partitionColumns paths)

/-- What a join step joins. -/
def Catalog.joined (step : AstJoinStep AstSelectStatement) : JoinInput :=
  step.derivedSource.elim (catalog.table step.source.paths) (fun derived => .derived (catalog.derivedPlan derived))

def Catalog.inputs (clause : AstJoinClause AstSelectStatement) : List JoinInput :=
  catalog.table clause.first.paths :: clause.steps.map catalog.joined

/-- A statement bound and planned, as by `plan_logical_unoptimized`. -/
def planStatement (stmt : AstSelectStatement) : Except String (BoundQuery × LogicalPlan) :=
  match stmt.join, stmt.fromSubquery with
  | some clause, _ => do
    let query ← bindJoinQuery stmt ((catalog.inputs clause).map JoinInput.schema)
    return (query, ← buildJoinPlan query (catalog.inputs clause))
  | none, some derived => do
    let query ← bindQuery stmt (catalog.derivedPlan derived).outputSchema
    return (query, buildOverPlan query (catalog.derivedPlan derived))
  | none, none => do
    let paths := stmt.source.paths
    let query ← bindQuery stmt (catalog.schema paths)
    return (query, buildLogicalPlan query (catalog.schema paths) (catalog.partitionColumns paths))

end Planning

/-! ## The statement as it is written -/

/-- The top-level conjuncts of a `WHERE` clause. -/
def whereConjuncts (stmt : AstSelectStatement) : List SqlExpr :=
  stmt.condition.toList.flatMap collectAndConjuncts

/-- What a name in a subquery of `EXISTS` stands for: a column of the subquery's source, or else one of the sources
around it. A row of the subquery's source is read behind a row of those. -/
def bindCorrelated (outer : List JoinSource) (inner : JoinSource) (reference : Reference) :
    Except String Expression :=
  let own := resolveColumn inner.schema (offsetOf outer outer.length) reference.name
  match reference.table with
  | some table => if inner.tableAlias = table then own else bindColumnRef (.join outer) reference
  | none =>
    if (inner.schema.findField reference.name).isSome then own else bindColumnRef (.join outer) reference

section Written

variable (catalog : Catalog)

/-- The sources of a statement, and a subquery's one source. -/
def sourcesOf (stmt : AstSelectStatement) : List JoinSource :=
  match stmt.join, stmt.fromSubquery with
  | some clause, _ => joinSources clause ((catalog.inputs clause).map JoinInput.schema)
  | none, some derived => [⟨"", (catalog.derivedPlan derived).outputSchema, .inner⟩]
  | none, none => [⟨stmt.source.tableAlias.getD "", catalog.schema stmt.source.paths, .inner⟩]

def tableSource (source : AstParquetSource) : JoinSource :=
  ⟨source.tableAlias.getD "", catalog.schema source.paths, .inner⟩

variable (tables : Tables)

def tableRows (paths : List String) : List Row :=
  tables.contents paths (catalog.schema paths)

/-- The rows of the `FROM` clause of a statement. -/
def sourceRows (stmt : AstSelectStatement) : Except String (List Row) :=
  match stmt.join, stmt.fromSubquery with
  | some clause, _ =>
    writtenJoins tables (.join (sourcesOf catalog stmt)) (tableRows catalog tables clause.first.paths)
      (clause.steps.map (fun step => (step, catalog.joined step)))
  | none, some derived => return rows tables (catalog.derivedPlan derived)
  | none, none => return tableRows catalog tables stmt.source.paths

/-- A subquery that returns a row for each row of one table that passes `WHERE`, or one row if it aggregates. -/
def overOneTable (sub : AstSelectStatement) : Bool :=
  sub.join.isNone && sub.fromSubquery.isNone && sub.groupBy.isEmpty && sub.having.isNone && sub.limit.isNone

/-- Whether a subquery of `EXISTS` returns any row, for each row of the sources around it. -/
def returnsRow (outer : List JoinSource) (sub : AstSelectStatement) : Except String (Row → Bool) :=
  if overOneTable sub then do
    let inner := tableSource catalog sub.source
    let condition ← sub.condition.mapM (bindWith (bindCorrelated outer inner) false)
    return fun row => isAggregateStatement sub ||
      (tableRows catalog tables sub.source.paths).any (fun other => holdsIf condition (row ++ other))
  else .error "the subquery of an EXISTS is not over one table"

/-- Whether a conjunct of `WHERE` is `TRUE`, for each row of the sources. -/
def conjunctTest (outer : List JoinSource) (conjunct : SqlExpr) : Except String (Row → Bool) :=
  match asExists conjunct with
  | some (sub, negated) => do
    let returned ← returnsRow catalog tables outer sub
    return fun row => returned row != negated
  | none => do
    let bound ← bind (.join outer) false conjunct
    return fun row => (eval bound row).isTrue

/-- The columns and the rows of a statement: the rows of its sources of which each conjunct of `WHERE` is `TRUE`,
and what the other clauses make of them. These are the planner's own, slots of aggregates included. -/
def writtenQuery (stmt : AstSelectStatement) : Except String (Schema × List Row) := do
  let outer := sourcesOf catalog stmt
  let joined ← sourceRows catalog tables stmt
  let tests ← (whereConjuncts stmt).mapM (conjunctTest catalog tables outer)
  let query ← bindQueryCommon { stmt with condition := none } (.join outer) (isAggregateStatement stmt)
  return (query.outputSchema, queryRows query (joined.filter (fun row => tests.all (fun test => test row))))

end Written

/-! ## Names that keep their columns -/

/-- Whether another lookup finds every name where one finds it. -/
def sameColumns (resolve other : Reference → Except String Expression) (written : List Reference) : Bool :=
  written.all (fun reference =>
    match resolve reference with
    | .ok column => other reference = .ok column
    | .error _ => true)

/-- The names that are looked up in the sources of a statement, those of its subqueries aside. The sort keys of an
aggregate query are names of its output. -/
def outerReferences (stmt : AstSelectStatement) : List Reference :=
  stmt.join.toList.flatMap (fun clause => clause.steps.flatMap (fun step => references step.condition)) ++
    stmt.selectList.flatMap (fun item => references item.expr) ++ (whereConjuncts stmt).flatMap references ++
    stmt.groupBy.flatMap references ++ stmt.having.toList.flatMap references ++
    (if isAggregateStatement stmt then [] else stmt.orderBy.flatMap (fun item => references item.expr))

/-- Whether a subquery of `EXISTS` may stand as a join: it does not aggregate, and every name in its `WHERE` has its
column in the joined sources. -/
def keepsSubquery (catalog : Catalog) (joined : Scope) (outer : List JoinSource) (sub : AstSelectStatement) : Bool :=
  !isAggregateStatement sub &&
    sameColumns (bindColumnRef joined) (bindCorrelated outer (tableSource catalog sub.source))
      (sub.condition.toList.flatMap references)

/-- Whether every name of a statement has its column also in the joined sources, its select list is no `*` and no
subquery of `EXISTS` aggregates. -/
def keepsColumns (catalog : Catalog) (stmt : AstSelectStatement) : Bool :=
  let joined := Scope.join (sourcesOf catalog (rewriteExistsSubqueries stmt))
  let outer := sourcesOf catalog stmt
  !stmt.selectList.any (fun item => isStar item.expr) &&
    sameColumns (bindColumnRef joined) (bindColumnRef (.join outer)) (outerReferences stmt) &&
    ((whereConjuncts stmt).filterMap asExists).all (fun (sub, _) => keepsSubquery catalog joined outer sub)

/-- Whether a statement has an `EXISTS` among the conjuncts of its `WHERE` clause. -/
def hasExists (stmt : AstSelectStatement) : Bool :=
  (whereConjuncts stmt).any (fun conjunct => (asExists conjunct).isSome)

end KernelLake.ExistsRewriting
