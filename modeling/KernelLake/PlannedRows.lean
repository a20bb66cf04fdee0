import KernelLake.LogicalPlanner

/-!
The rows of a planned query.

The clauses of a query act on the rows of its sources, whatever plan these rows come from.
-/

namespace KernelLake.PlannedRows

open KernelLake.Types KernelLake.Expressions KernelLake.Evaluation KernelLake.LogicalPlans
open KernelLake.PlanSemantics KernelLake.QueryBinding KernelLake.LogicalPlanner

def filterRowsIf (predicate : Option Expression) (input : List Row) : List Row :=
  predicate.elim input (fun condition => filterRows condition input)

def limitRowsIf (limit : Option Int) (input : List Row) : List Row :=
  limit.elim input (fun count => input.take count.toNat)

/-- The rows of the aggregation a query is planned as. -/
def aggregatedRows (query : BoundQuery) (input : List Row) : List Row :=
  let groups := groupPositions query.groupBy
  let (items, slots) := rewriteSelectList groups query.selectList .empty
  let (having, slots) := rewriteHaving groups query.having slots
  (filterRowsIf having (aggregateRows groups.groupBy slots.aggregates input)).map (projectRow items)

/-- The rows a query is planned to return, given the rows of its sources. -/
def queryRows (query : BoundQuery) (input : List Row) : List Row :=
  let filtered := filterRowsIf query.condition input
  limitRowsIf query.limit
    (if query.isAggregateQuery then sortRows query.orderBy (aggregatedRows query filtered)
     else (sortRows query.orderBy filtered).map (projectRow query.selectList))

theorem filterRowsIf_eq (predicate : Option Expression) (input : List Row) :
    filterRowsIf predicate input = input.filter (fun row =>
      predicate.all (fun condition => (eval condition row).isTrue)) := by
  cases predicate with
  | none => simp [filterRowsIf]
  | some condition => rfl

theorem sortRows_nil (input : List Row) : sortRows [] input = input := by
  induction input with
  | nil => rfl
  | cons row rest hypothesis =>
    rw [sortRows] at hypothesis
    rw [sortRows, List.insertionSort_cons, hypothesis]
    cases rest with
    | nil => rfl
    | cons next rest => simp [List.orderedInsert, sortedBefore]

variable (tables : Tables) (plan : LogicalPlan)

theorem rows_filterIf (predicate : Option Expression) :
    rows tables (filterIf predicate plan) = filterRowsIf predicate (rows tables plan) := by
  cases predicate with
  | none => rfl
  | some condition => rfl

theorem rows_sortIf (keys : List SortKey) :
    rows tables (sortIf keys plan) = sortRows keys (rows tables plan) := by
  cases keys with
  | nil => exact (sortRows_nil _).symm
  | cons key keys => rfl

theorem rows_limitIf (limit : Option Int) :
    rows tables (limitIf limit plan) = limitRowsIf limit (rows tables plan) := by
  cases limit with
  | none => rfl
  | some count => rfl

theorem rows_aggregatePlan (query : BoundQuery) :
    rows tables (aggregatePlan plan query) = aggregatedRows query (rows tables plan) := by
  rw [aggregatePlan, rows, rows_filterIf, rows, aggregatedRows]

/-- The plan of a query returns what its clauses make of the rows of its sources. -/
theorem rows_finishLogicalPlan (query : BoundQuery) :
    rows tables (finishLogicalPlan plan query) = queryRows query (rows tables plan) := by
  rw [finishLogicalPlan, rows_limitIf, queryRows]
  cases query.isAggregateQuery with
  | true => rw [if_pos rfl, if_pos rfl, rows_sortIf, rows_aggregatePlan, rows_filterIf]
  | false =>
    rw [if_neg Bool.false_ne_true, if_neg Bool.false_ne_true, rows, rows_sortIf, rows_filterIf]

end KernelLake.PlannedRows
