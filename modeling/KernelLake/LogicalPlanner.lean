import KernelLake.PlanSemantics
import KernelLake.QueryBinding

/-!
From a bound query to a logical plan.

The sources become a scan, a derived plan or a left-deep chain of joins, and the clauses follow:
`WHERE`, then either `ORDER BY` and the projection, or the aggregation with `HAVING`, the projection
and `ORDER BY`, and last `LIMIT`. Above an aggregation every select item is rewritten to refer to the
aggregation's output, where a key column or an aggregate is recognised by its structural key.
-/

namespace KernelLake.LogicalPlanner

open KernelLake.Types KernelLake.Expressions KernelLake.Evaluation KernelLake.ExpressionText
open KernelLake.LogicalPlans KernelLake.PlanSemantics KernelLake.QueryBinding

/-! ## References to an aggregation's output -/

/-- The aggregates found so far, and where each structural key among them has its slot. -/
structure AggregateSlots where
  aggregates : List NamedExpression
  positions : List (String × Nat)

def AggregateSlots.empty : AggregateSlots := ⟨[], []⟩

/-- The slot of an aggregate; the first expression with a key sets the slot and its name. -/
def registerAggregate (expression : Expression) (name : String) (slots : AggregateSlots) :
    Nat × AggregateSlots :=
  match slots.positions.lookup (structuralKey expression) with
  | some position => (position, slots)
  | none =>
    let position := slots.aggregates.length
    (position, ⟨slots.aggregates ++ [⟨expression, name⟩],
      (structuralKey expression, position) :: slots.positions⟩)

/-- The output column of an aggregate's slot. -/
def slotColumn (groupCount : Nat) (position : Nat) (type : DataType) (slots : AggregateSlots) : Expression :=
  .column (((slots.aggregates[position]?).map NamedExpression.name).getD "") (groupCount + position) type

def registerAs (groupCount : Nat) (expression : Expression) (name : String) (slots : AggregateSlots) :
    Expression × AggregateSlots :=
  let (position, slots') := registerAggregate expression name slots
  (slotColumn groupCount position expression.resultType slots', slots')

/-- The grouping keys and where each structural key among them stands; of equal keys the last one. -/
structure GroupPositions where
  groupBy : List NamedExpression
  positions : List (String × Nat)

def groupPositions (groupBy : List Expression) : GroupPositions where
  groupBy := groupBy.map (fun expr => ⟨expr, expressionToString expr⟩)
  positions := (groupBy.zipIdx.map (fun (expr, position) => (structuralKey expr, position))).reverse

/-- The output column of the grouping key with the structural key of an expression. -/
def keyColumn (groups : GroupPositions) (expression : Expression) : Option Expression :=
  (groups.positions.lookup (structuralKey expression)).map (fun position =>
    .column (((groups.groupBy[position]?).map NamedExpression.name).getD "") position expression.resultType)

def isAggregate : Expression → Bool
  | .aggregate .. => true
  | .countStar _ => true
  | _ => false

def syntheticName (slots : AggregateSlots) : String :=
  "__kernellake_agg_" ++ toString slots.aggregates.length

mutual

/-- An expression over groups, rewritten to one over the aggregation's output rows. The operands of an operator
register their aggregates from left to right here. C++ leaves this order open, and with it the numbers of the slots,
which the rewritten expression then reads. -/
def rewriteAggregateRefs (groups : GroupPositions) (expression : Expression) (slots : AggregateSlots) :
    Expression × AggregateSlots :=
  match keyColumn groups expression with
  | some column => (column, slots)
  | none =>
    match expression with
    | .aggregate function argument type =>
      registerAs groups.groupBy.length (.aggregate function argument type) (syntheticName slots) slots
    | .countStar type => registerAs groups.groupBy.length (.countStar type) (syntheticName slots) slots
    | .binary op left right type =>
      let (left', slots) := rewriteAggregateRefs groups left slots
      let (right', slots) := rewriteAggregateRefs groups right slots
      (.binary op left' right' type, slots)
    | .unary op operand type =>
      let (operand', slots) := rewriteAggregateRefs groups operand slots
      (.unary op operand' type, slots)
    | .cast operand type =>
      let (operand', slots) := rewriteAggregateRefs groups operand slots
      (.cast operand' type, slots)
    | .between value lower upper =>
      let (value', slots) := rewriteAggregateRefs groups value slots
      let (lower', slots) := rewriteAggregateRefs groups lower slots
      let (upper', slots) := rewriteAggregateRefs groups upper slots
      (.between value' lower' upper', slots)
    | .like value pattern negated =>
      let (value', slots) := rewriteAggregateRefs groups value slots
      (.like value' pattern negated, slots)
    | .caseWhen branches type =>
      let (branches', slots) := rewriteBranchRefs groups branches slots
      (.caseWhen branches' type, slots)
    | .extract part operand type =>
      let (operand', slots) := rewriteAggregateRefs groups operand slots
      (.extract part operand' type, slots)
    | .substring operand start length type =>
      let (operand', slots) := rewriteAggregateRefs groups operand slots
      (.substring operand' start length type, slots)
    | .column name columnIndex type => (.column name columnIndex type, slots)
    | .literal value type => (.literal value type, slots)

def rewriteBranchRefs (groups : GroupPositions) (branches : CaseBranches) (slots : AggregateSlots) :
    CaseBranches × AggregateSlots :=
  match branches with
  | .done => (.done, slots)
  | .otherwise result =>
    let (result', slots) := rewriteAggregateRefs groups result slots
    (.otherwise result', slots)
  | .when condition result rest =>
    let (condition', slots) := rewriteAggregateRefs groups condition slots
    let (result', slots) := rewriteAggregateRefs groups result slots
    let (rest', slots) := rewriteBranchRefs groups rest slots
    (.when condition' result' rest', slots)

end

/-- A select item that is an aggregate call gives its slot its own name. -/
def rewriteSelectItem (groups : GroupPositions) (item : NamedExpression) (slots : AggregateSlots) :
    NamedExpression × AggregateSlots :=
  if isAggregate item.expr then
    let (column, slots) := registerAs groups.groupBy.length item.expr item.name slots
    (⟨column, item.name⟩, slots)
  else
    let (expr, slots) := rewriteAggregateRefs groups item.expr slots
    (⟨expr, item.name⟩, slots)

def rewriteSelectList (groups : GroupPositions) :
    List NamedExpression → AggregateSlots → List NamedExpression × AggregateSlots
  | [], slots => ([], slots)
  | item :: rest, slots =>
    let (item', slots) := rewriteSelectItem groups item slots
    let (rest', slots) := rewriteSelectList groups rest slots
    (item' :: rest', slots)

def rewriteHaving (groups : GroupPositions) (having : Option Expression) (slots : AggregateSlots) :
    Option Expression × AggregateSlots :=
  match having with
  | none => (none, slots)
  | some predicate =>
    let (predicate', slots) := rewriteAggregateRefs groups predicate slots
    (some predicate', slots)

/-! ## Clauses -/

def filterIf (predicate : Option Expression) (plan : LogicalPlan) : LogicalPlan :=
  predicate.elim plan (.filter plan)

/-- The keys are as `to_sort_keys` makes them. -/
def sortIf (keys : List SortKey) (plan : LogicalPlan) : LogicalPlan :=
  if keys.isEmpty then plan else .sort plan keys

def limitIf (limit : Option Int) (plan : LogicalPlan) : LogicalPlan :=
  limit.elim plan (.limit plan)

/-- The aggregation of a query with its `HAVING` filter and the projection to the select list. -/
def aggregatePlan (plan : LogicalPlan) (query : BoundQuery) : LogicalPlan :=
  let groups := groupPositions query.groupBy
  let (items, slots) := rewriteSelectList groups query.selectList .empty
  let (having, slots) := rewriteHaving groups query.having slots
  .projection (filterIf having (.aggregate plan groups.groupBy slots.aggregates)) items

def finishLogicalPlan (plan : LogicalPlan) (query : BoundQuery) : LogicalPlan :=
  let filtered := filterIf query.condition plan
  let finished :=
    if query.isAggregateQuery then sortIf query.orderBy (aggregatePlan filtered query)
    else .projection (sortIf query.orderBy filtered) query.selectList
  limitIf query.limit finished

/-! ## Sources -/

/-- A query over one table. -/
def buildLogicalPlan (query : BoundQuery) (sourceSchema : Schema)
    (partitionColumns : List PartitionColumn) : LogicalPlan :=
  finishLogicalPlan (.scan (.make query.sourcePaths sourceSchema partitionColumns)) query

/-- `build_logical_plan` over the plan of a derived table. -/
def buildOverPlan (query : BoundQuery) (sourcePlan : LogicalPlan) : LogicalPlan :=
  finishLogicalPlan sourcePlan query

/-- A source of a chain: a table with its schema and partition columns, or a derived table. -/
inductive JoinInput
  | table (schema : Schema) (partitionColumns : List PartitionColumn)
  | derived (plan : LogicalPlan)

def JoinInput.schema : JoinInput → Schema
  | .table schema _ => schema
  | .derived plan => plan.outputSchema

def JoinInput.partitionColumns : JoinInput → List PartitionColumn
  | .table _ partitionColumns => partitionColumns
  | .derived _ => []

def JoinInput.plan (paths : List String) : JoinInput → LogicalPlan
  | .table schema partitionColumns => .scan (.make paths schema partitionColumns)
  | .derived plan => plan

def joinStep (plan : LogicalPlan) (step : BoundJoinStep) (input : JoinInput) : LogicalPlan :=
  .join plan (filterIf step.rightPrefilter (input.plan step.sourcePaths)) step.combinedKeyIndex
    step.sourceKeyIndex step.joinType step.residualPredicate

def joinChain (plan : LogicalPlan) : List (BoundJoinStep × JoinInput) → LogicalPlan
  | [] => plan
  | (step, input) :: rest => joinChain (joinStep plan step input) rest

/-- The joined sources of a query; the first one is always a scan. -/
def buildJoinSource (join : BoundJoin) (first : JoinInput) (inputs : List JoinInput) : LogicalPlan :=
  joinChain (.scan (.make join.firstSourcePaths first.schema first.partitionColumns)) (join.steps.zip inputs)

/-- `build_logical_plan` over joined sources. -/
def buildJoinPlan (query : BoundQuery) (inputs : List JoinInput) : Except String LogicalPlan :=
  match query.join, inputs with
  | none, _ => .error "unreachable: build_logical_plan(join_schemas) called without a JOIN clause"
  | some join, first :: rest =>
    if rest.length ≠ join.steps.length then
      .error ("unreachable: build_logical_plan(join_schemas) called with the wrong number of schemas for " ++
        "this JOIN chain")
    else .ok (finishLogicalPlan (buildJoinSource join first rest) query)
  | some _, [] => .error ("unreachable: build_logical_plan(join_schemas) called with the wrong number of " ++
      "schemas for this JOIN chain")

end KernelLake.LogicalPlanner
