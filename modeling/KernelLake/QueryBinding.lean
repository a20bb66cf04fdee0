import KernelLake.Binder
import KernelLake.Optimizer

/-!
Binding of whole queries.

The clauses of a query are bound one after the other in one scope. A `GROUP BY` name is a column of the
scope, or else the name of a select item; every other column of an aggregate query must stand inside
an aggregate. The conditions of a join chain are split into one key equality per step, conditions on
the new source alone, and, for semi and anti joins, conditions on both sides.
-/

namespace KernelLake.QueryBinding

open KernelLake.Types KernelLake.Expressions KernelLake.ExpressionText KernelLake.LogicalPlans
open KernelLake.SqlAst KernelLake.Binder KernelLake.Optimizer

/-- A source joined onto those before it: the key positions in the chain so far and in the source, a
condition on the source alone and, for semi and anti joins, one on both sides. -/
structure BoundJoinStep where
  sourcePaths : List String
  combinedKeyIndex : Nat
  sourceKeyIndex : Nat
  joinType : JoinType
  rightPrefilter : Option Expression
  residualPredicate : Option Expression
  deriving DecidableEq

structure BoundJoin where
  firstSourcePaths : List String
  steps : List BoundJoinStep
  deriving DecidableEq

/-- A bound query. Select items and sort keys are written as the plan's own. -/
structure BoundQuery where
  selectList : List NamedExpression
  outputSchema : Schema
  sourcePaths : List String := []
  join : Option BoundJoin := none
  condition : Option Expression
  groupBy : List Expression
  having : Option Expression
  orderBy : List SortKey
  limit : Option Int
  isAggregateQuery : Bool
  deriving DecidableEq

/-! ## Select list -/

def isColumnRef {Statement : Type} : AstExpr Statement → Option String
  | .columnRef name _ => some name
  | _ => none

/-- The name of a select item: its alias, its column's name or its text. -/
def outputName {Statement : Type} (item : AstSelectItem Statement) (bound : Expression) : String :=
  item.outputAlias.getD ((isColumnRef item.expr).getD (expressionToString bound))

def isStar {Statement : Type} : AstExpr Statement → Bool
  | .star => true
  | _ => false

def starItems (scope : Scope) : List NamedExpression :=
  (allFieldsWithIndex scope).map (fun (field, index) => ⟨.column field.name index field.type, field.name⟩)

def bindSelectItem {Statement : Type} (scope : Scope) (itemCount : Nat) (item : AstSelectItem Statement) :
    Except String (List NamedExpression) :=
  if isStar item.expr then
    if itemCount ≠ 1 then .error "'*' cannot be combined with other SELECT-list items"
    else .ok (starItems scope)
  else do
    let bound ← bind scope true item.expr
    return [⟨bound, outputName item bound⟩]

def addSelectItem (selected : List NamedExpression) (item : NamedExpression) :
    Except String (List NamedExpression) :=
  if selected.any (fun other => other.name = item.name) then
    .error ("duplicate output column name '" ++ item.name ++ "'")
  else .ok (selected ++ [item])

def bindSelectList {Statement : Type} (scope : Scope) (items : List (AstSelectItem Statement)) :
    Except String (List NamedExpression) :=
  items.foldlM (fun selected item => do
    (← bindSelectItem scope items.length item).foldlM addSelectItem selected) []

/-! ## Grouping -/

/-- A `GROUP BY` key, with the position of the select item whose name it is. -/
structure GroupKey where
  expr : Expression
  selectIndex : Option Nat

def groupByReference {Statement : Type} : AstExpr Statement → Except String Reference
  | .columnRef name table => .ok ⟨name, table⟩
  | _ => .error "GROUP BY expressions must be plain column references in this version"

/-- A qualified name is always a column; any other is one if the scope has it. -/
def namesColumn (scope : Scope) (reference : Reference) : Except String Bool :=
  match reference.table with
  | some _ => return true
  | none => do return (← findFieldByPlainName scope reference.name).isSome

def bindGroupKey (scope : Scope) (selectList : List NamedExpression) (reference : Reference) :
    Except String GroupKey := do
  if ← namesColumn scope reference then return ⟨← bindColumnRef scope reference, none⟩
  else
    match selectList.findIdx? (fun item => item.name = reference.name) with
    | some index =>
      match selectList[index]? with
      | some item => return ⟨item.expr, some index⟩
      | none => .error ("unknown column '" ++ reference.name ++ "' in GROUP BY")
    | none => .error ("unknown column '" ++ reference.name ++ "' in GROUP BY")

mutual

/-- Whether an expression has a column outside aggregates that is no `GROUP BY` key. -/
def referencesUngroupedColumn (groupByKeys : List String) (insideAggregate : Bool) : Expression → Bool
  | .column name columnIndex type =>
    !insideAggregate && !groupByKeys.contains (structuralKey (.column name columnIndex type))
  | .aggregate _ argument _ => referencesUngroupedColumn groupByKeys true argument
  | .countStar _ => false
  | .binary _ left right _ =>
    referencesUngroupedColumn groupByKeys insideAggregate left ||
      referencesUngroupedColumn groupByKeys insideAggregate right
  | .unary _ operand _ => referencesUngroupedColumn groupByKeys insideAggregate operand
  | .cast operand _ => referencesUngroupedColumn groupByKeys insideAggregate operand
  | .between value lower upper =>
    referencesUngroupedColumn groupByKeys insideAggregate value ||
      referencesUngroupedColumn groupByKeys insideAggregate lower ||
      referencesUngroupedColumn groupByKeys insideAggregate upper
  | .like value _ _ => referencesUngroupedColumn groupByKeys insideAggregate value
  | .caseWhen branches _ => branchesReferenceUngrouped groupByKeys insideAggregate branches
  | .extract _ operand _ => referencesUngroupedColumn groupByKeys insideAggregate operand
  | .substring operand _ _ _ => referencesUngroupedColumn groupByKeys insideAggregate operand
  | .literal .. => false

def branchesReferenceUngrouped (groupByKeys : List String) (insideAggregate : Bool) :
    CaseBranches → Bool
  | .done => false
  | .otherwise result => referencesUngroupedColumn groupByKeys insideAggregate result
  | .when condition result rest =>
    referencesUngroupedColumn groupByKeys insideAggregate condition ||
      referencesUngroupedColumn groupByKeys insideAggregate result ||
      branchesReferenceUngrouped groupByKeys insideAggregate rest

end

/-- The select items that are checked: a `*` is not, and an item that defines a `GROUP BY` key is not. -/
def checkedItems {Statement : Type} (items : List (AstSelectItem Statement))
    (selectList : List NamedExpression) (keys : List GroupKey) : List NamedExpression :=
  ((items.zip selectList).zipIdx.filter (fun (pair, index) =>
    !isStar pair.1.expr && !(keys.map GroupKey.selectIndex).contains (some index))).map
      (fun (pair, _) => pair.2)

/-! ## Clauses -/

def bindCondition {Statement : Type} (scope : Scope) (condition : AstExpr Statement) :
    Except String Expression :=
  if containsAggregate condition then .error "aggregate functions are not allowed in WHERE"
  else do
    let bound ← bind scope false condition
    if bound.resultType.id ≠ .boolean then
      .error ("WHERE clause must be a boolean expression, got " ++ bound.resultType.toString)
    else return bound

def bindHaving {Statement : Type} (scope : Scope) (isAggregateQuery : Bool) (groupByKeys : List String)
    (having : AstExpr Statement) : Except String Expression :=
  if !isAggregateQuery then
    .error "HAVING requires GROUP BY or an aggregate function in the SELECT list"
  else do
    let bound ← bind scope true having
    if bound.resultType.id ≠ .boolean then
      .error ("HAVING clause must be a boolean expression, got " ++ bound.resultType.toString)
    else if referencesUngroupedColumn groupByKeys false bound then
      .error "column referenced in HAVING must appear in GROUP BY or be used inside an aggregate function"
    else return bound

/-- In an aggregate query an `ORDER BY` item is an output column by name. -/
def bindOutputColumn {Statement : Type} (outputSchema : Schema) (expr : AstExpr Statement) :
    Except String Expression :=
  match isColumnRef expr with
  | none => .error ("ORDER BY after GROUP BY only supports a plain SELECT-list output name in this " ++
      "version of KernelLake")
  | some name =>
    match outputSchema.findField name with
    | none => .error ("ORDER BY after GROUP BY: '" ++ name ++
        "' is not one of this query's output columns")
    | some index =>
      match outputSchema[index]? with
      | none => .error ("ORDER BY after GROUP BY: '" ++ name ++
          "' is not one of this query's output columns")
      | some field => .ok (.column field.name index field.type)

def bindOrderByItem {Statement : Type} (scope : Scope) (isAggregateQuery : Bool) (outputSchema : Schema)
    (item : AstOrderByItem Statement) : Except String SortKey := do
  if isAggregateQuery then return ⟨← bindOutputColumn outputSchema item.expr, item.ascending⟩
  else return ⟨← bind scope true item.expr, item.ascending⟩

def isAggregateStatement (stmt : AstSelectStatement) : Bool :=
  !stmt.groupBy.isEmpty || stmt.selectList.any (fun item => containsAggregate item.expr)

def ungroupedColumn : String :=
  "column referenced in SELECT list must appear in GROUP BY or be used inside an aggregate function"

def bindQueryCommon (stmt : AstSelectStatement) (scope : Scope) (isAggregateQuery : Bool) :
    Except String BoundQuery := do
  let groupReferences ← stmt.groupBy.mapM groupByReference
  let selectList ← bindSelectList scope stmt.selectList
  let condition ← stmt.condition.mapM (bindCondition scope)
  let keys ← groupReferences.mapM (bindGroupKey scope selectList)
  let groupByKeys := keys.map (fun key => structuralKey key.expr)
  if isAggregateQuery && (checkedItems stmt.selectList selectList keys).any
      (fun item => referencesUngroupedColumn groupByKeys false item.expr) then
    .error ungroupedColumn
  else do
    let having ← stmt.having.mapM (bindHaving scope isAggregateQuery groupByKeys)
    let orderBy ← stmt.orderBy.mapM (bindOrderByItem scope isAggregateQuery (namedFields selectList))
    return { selectList, outputSchema := namedFields selectList, condition,
             groupBy := keys.map GroupKey.expr, having, orderBy, limit := stmt.limit, isAggregateQuery }

def bindQuery (stmt : AstSelectStatement) (inputSchema : Schema) : Except String BoundQuery := do
  let query ← bindQueryCommon stmt (.table inputSchema) (isAggregateStatement stmt)
  return { query with sourcePaths := stmt.source.paths }

/-! ## Join conditions -/

/-- An expression over a source's columns, numbered from the source's own start. -/
def rebaseToSourceSchema (combinedFieldCount : Nat) (expression : Expression) : Expression :=
  shiftColumns combinedFieldCount expression

structure JoinStepKeys where
  combinedKeyIndex : Nat
  sourceKeyIndex : Nat
  rightPrefilter : Option Expression
  residualPredicate : Option Expression

/-- The key positions of an equality between a column of the chain and one of the new source. -/
def keyCandidate (combinedFieldCount combinedEnd : Nat) : Expression → Option (Nat × Nat)
  | .binary .equal (.column _ left _) (.column _ right _) _ =>
    if left < combinedFieldCount ∧ combinedFieldCount ≤ right ∧ right < combinedEnd then
      some (left, right - combinedFieldCount)
    else if right < combinedFieldCount ∧ combinedFieldCount ≤ left ∧ left < combinedEnd then
      some (right, left - combinedFieldCount)
    else none
  | _ => none

/-- The one key equality of a list of conjuncts, with its place among them. -/
def findKey (candidate : Expression → Option (Nat × Nat)) (position : Nat)
    (found : Option (Nat × Nat × Nat)) : List Expression → Except String (Option (Nat × Nat × Nat))
  | [] => return found
  | conjunct :: rest =>
    match candidate conjunct with
    | none => findKey candidate (position + 1) found rest
    | some key =>
      if found.isSome then .error ("JOIN ON condition must contain exactly one equality key comparing " ++
        "the two sides, found more than one")
      else findKey candidate (position + 1) (some (position, key)) rest

def andAlso (sofar : Option Expression) (conjunct : Expression) : Option Expression :=
  some (sofar.elim conjunct (fun previous => .binary .and previous conjunct (booleanType false)))

/-- The conjuncts that `collect_join_condition_conjuncts` finds beside the key: those on the new source alone and,
where allowed, the others. -/
def splitConjuncts (rightOnly : Expression → Bool) (rebase : Expression → Expression)
    (allowResidual : Bool) (prefilter residual : Option Expression) :
    List Expression → Except String (Option Expression × Option Expression)
  | [] => return (prefilter, residual)
  | conjunct :: rest =>
    if rightOnly conjunct then
      splitConjuncts rightOnly rebase allowResidual (andAlso prefilter (rebase conjunct)) residual rest
    else if !allowResidual then
      .error ("JOIN ON condition may only combine the required equality key with additional predicates " ++
        "that reference just the newly-joined source's own columns (e.g. TPC-H Q13's `o_comment NOT LIKE " ++
        "'%special%requests%'`) -- a predicate referencing the already-joined side is not supported")
    else splitConjuncts rightOnly rebase allowResidual prefilter (andAlso residual conjunct) rest

def extractJoinStepKeys (condition : Expression) (combinedFieldCount sourceFieldCount : Nat)
    (joinType : JoinType) : Except String JoinStepKeys := do
  let conjuncts := collectConjuncts condition
  let combinedEnd := combinedFieldCount + sourceFieldCount
  match ← findKey (keyCandidate combinedFieldCount combinedEnd) 0 none conjuncts with
  | none => .error ("JOIN ON condition must include exactly one equality, of identical type (no implicit " ++
      "cast), between one column already joined so far and one column from the newly-joined source, e.g. " ++
      "a.key = b.key")
  | some (position, combinedKeyIndex, sourceKeyIndex) => do
    let rightOnly (conjunct : Expression) : Bool :=
      (collectColumns conjunct).all (fun index => combinedFieldCount ≤ index && index < combinedEnd)
    let (rightPrefilter, residualPredicate) ← splitConjuncts rightOnly
      (rebaseToSourceSchema combinedFieldCount) (!keepsRight joinType) none none
      (conjuncts.eraseIdx position)
    return { combinedKeyIndex, sourceKeyIndex, rightPrefilter, residualPredicate }

/-! ## Join chains -/

def joinSources (clause : AstJoinClause AstSelectStatement) : List Schema → List JoinSource
  | [] => []
  | first :: rest =>
    ⟨clause.first.tableAlias.getD "", first, .inner⟩ ::
      (clause.steps.zip rest).map (fun (step, schema) =>
        ⟨step.source.tableAlias.getD "", schema, step.joinType⟩)

def bindJoinSteps (scope : Scope) (combinedFieldCount : Nat) :
    List (AstJoinStep AstSelectStatement × Schema) → Except String (List BoundJoinStep)
  | [] => return []
  | (step, schema) :: rest => do
    let condition ← bind scope false step.condition
    let keys ← extractJoinStepKeys condition combinedFieldCount schema.length step.joinType
    let others ← bindJoinSteps scope
      (if keepsRight step.joinType then combinedFieldCount + schema.length else combinedFieldCount) rest
    return { sourcePaths := step.source.paths, combinedKeyIndex := keys.combinedKeyIndex,
             sourceKeyIndex := keys.sourceKeyIndex, joinType := step.joinType,
             rightPrefilter := keys.rightPrefilter, residualPredicate := keys.residualPredicate } :: others

/-- `bind_query` of a statement with a JOIN. -/
def bindJoinQuery (stmt : AstSelectStatement) (joinSchemas : List Schema) : Except String BoundQuery :=
  match stmt.join, joinSchemas with
  | none, _ => .error "unreachable: bind_query(join_schemas) called without a JOIN clause"
  | some clause, first :: rest =>
    if rest.length ≠ clause.steps.length then
      .error ("unreachable: bind_query(join_schemas) called with the wrong number of schemas for this " ++
        "JOIN chain")
    else do
      let scope := Scope.join (joinSources clause joinSchemas)
      let steps ← bindJoinSteps scope first.length (clause.steps.zip rest)
      let query ← bindQueryCommon stmt scope (isAggregateStatement stmt)
      return { query with join := some ⟨clause.first.paths, steps⟩ }
  | some _, [] => .error ("unreachable: bind_query(join_schemas) called with the wrong number of schemas " ++
      "for this JOIN chain")

end KernelLake.QueryBinding
