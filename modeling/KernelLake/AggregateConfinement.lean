import KernelLake.BoundQueryTypes
import KernelLake.GroupingCheck

/-!
Aggregate calls stay inside aggregations.

A call never stands inside another one, since an argument is bound where no call is allowed. In a query that
aggregates nothing the only clause that can bring one in is `ORDER BY`: its items are bound like select items,
but unlike these they do not make the query an aggregate query. Without such an item every aggregate call of
a plan is a key or a slot of an aggregation.
-/

namespace KernelLake.AggregateConfinement

open KernelLake.Types KernelLake.Expressions KernelLake.LogicalPlans KernelLake.SqlAst KernelLake.Binder
open KernelLake.QueryBinding KernelLake.LogicalPlanner KernelLake.BindingProofs KernelLake.BindingSteps
open KernelLake.QueryBindingProofs KernelLake.BoundQueryTypes KernelLake.BindingTallies KernelLake.GroupingCheck
open KernelLake.PlannedColumns KernelLake.Optimizer KernelLake.JoinBinding KernelLake.ReferenceProofs
open KernelLake.Library.Results
open KernelLake.AggregatePlanning (hasAggregate branchesHaveAggregate groupedStatement readings)

/-! ## Nested calls -/

mutual

/-- Whether an aggregate call stands inside another one. -/
def nestsAggregates : Expression → Bool
  | .column .. => false
  | .literal .. => false
  | .binary _ left right _ => nestsAggregates left || nestsAggregates right
  | .unary _ operand _ => nestsAggregates operand
  | .cast operand _ => nestsAggregates operand
  | .extract _ operand _ => nestsAggregates operand
  | .substring operand _ _ _ => nestsAggregates operand
  | .between value lower upper => nestsAggregates value || nestsAggregates lower || nestsAggregates upper
  | .like value _ _ => nestsAggregates value
  | .caseWhen branches _ => branchesNestAggregates branches
  | .aggregate _ argument _ => hasAggregate argument
  | .countStar _ => false

def branchesNestAggregates : CaseBranches → Bool
  | .done => false
  | .otherwise result => nestsAggregates result
  | .when condition result rest =>
    nestsAggregates condition || nestsAggregates result || branchesNestAggregates rest

end

theorem marks_nested : Marks nestsAggregates branchesNestAggregates where
  literal _ _ := rfl
  binary _ _ _ _ := rfl
  unary _ _ _ := rfl
  cast _ _ := rfl
  extract _ _ _ := rfl
  substring _ _ _ _ := rfl
  between _ _ _ := rfl
  like _ _ _ := rfl
  caseWhen _ _ := rfl
  done := rfl
  otherwise _ := rfl
  when _ _ _ := rfl

mutual

theorem nestsAggregates_of_plain : (expression : Expression) → hasAggregate expression = false →
    nestsAggregates expression = false
  | .column .., _ | .literal .., _ => rfl
  | .binary _ left right _, plain => by
    obtain ⟨leftPlain, rightPlain⟩ := Bool.or_eq_false_iff.mp plain
    exact Bool.or_eq_false_iff.mpr ⟨nestsAggregates_of_plain left leftPlain,
      nestsAggregates_of_plain right rightPlain⟩
  | .unary _ operand _, plain | .cast operand _, plain | .extract _ operand _, plain
  | .substring operand _ _ _, plain | .like operand _ _, plain => nestsAggregates_of_plain operand plain
  | .between value lower upper, plain => by
    obtain ⟨innerPlain, upperPlain⟩ := Bool.or_eq_false_iff.mp plain
    obtain ⟨valuePlain, lowerPlain⟩ := Bool.or_eq_false_iff.mp innerPlain
    exact Bool.or_eq_false_iff.mpr ⟨Bool.or_eq_false_iff.mpr ⟨nestsAggregates_of_plain value valuePlain,
      nestsAggregates_of_plain lower lowerPlain⟩, nestsAggregates_of_plain upper upperPlain⟩
  | .caseWhen branches _, plain => branchesNestAggregates_of_plain branches plain
  | .aggregate .., plain | .countStar _, plain => by cases plain

theorem branchesNestAggregates_of_plain : (branches : CaseBranches) → branchesHaveAggregate branches = false →
    branchesNestAggregates branches = false
  | .done, _ => rfl
  | .otherwise result, plain => nestsAggregates_of_plain result plain
  | .when condition result rest, plain => by
    obtain ⟨innerPlain, restPlain⟩ := Bool.or_eq_false_iff.mp plain
    obtain ⟨conditionPlain, resultPlain⟩ := Bool.or_eq_false_iff.mp innerPlain
    exact Bool.or_eq_false_iff.mpr ⟨Bool.or_eq_false_iff.mpr ⟨nestsAggregates_of_plain condition conditionPlain,
      nestsAggregates_of_plain result resultPlain⟩, branchesNestAggregates_of_plain rest restPlain⟩

end

/-- Binding nests no aggregate calls. -/
theorem bind_unnested {Statement : Type} {scope : Scope} {allowAggregates : Bool}
    {expression : AstExpr Statement} {bound : Expression}
    (ran : bind scope allowAggregates expression = .ok bound) : nestsAggregates bound = false := by
  have account : Accounted (bindColumnRef scope) (fun expression => nestsAggregates expression = false)
      allowAggregates _ _ _ := bindWith_accounted allowAggregates expression bound ran
  have arguments : ∀ step ∈ bindingSteps (bindColumnRef scope) allowAggregates expression,
      step.ArgumentHolds (fun argument => hasAggregate argument = false) :=
    bindingSteps_argument (fun written argument argumentRan => bind_plain argumentRan) allowAggregates expression
  have closed := marks_nested.hereditary.inheritable.derivable.closed
  refine account.held (fun step member => ?_) (fun reference _ column resolved => ?_)
  · have taken := account.taken step member
    have argumentPlain := arguments step member
    cases step with
    | aggregate function argument =>
      intro result stepRan _ _
      obtain ⟨argument', type, rfl, same⟩ := combineAggregate_eq_ok marks_aggregate stepRan
      exact same.trans argumentPlain
    | countStar =>
      intro result stepRan _ _
      rw [← Except.ok.inj stepRan]
      rfl
    | _ =>
      have noCall : Step.Taken false _ := ⟨taken.ran, taken.checked, fun isCall => by cases isCall⟩
      exact closed.keeps (fun allowed => by cases allowed) noCall
  · obtain ⟨_, _, _, rfl⟩ := bindColumnRef_column resolved
    rfl

/-! ## Output columns -/

theorem keyColumn_plain {groups : GroupPositions} {expression column : Expression}
    (isKey : keyColumn groups expression = some column) : hasAggregate column = false := by
  obtain ⟨_, _, rfl⟩ := Option.map_eq_some_iff.mp isKey
  rfl

mutual

/-- An expression over an aggregation's output has no aggregate calls. -/
theorem rewriteAggregateRefs_plain (groups : GroupPositions) : (expression : Expression) →
    (slots : AggregateSlots) → hasAggregate (rewriteAggregateRefs groups expression slots).1 = false
  | .column .., slots | .literal .., slots | .aggregate .., slots | .countStar _, slots => by
    rw [rewriteAggregateRefs]
    split
    · rename_i isKey
      exact keyColumn_plain isKey
    · rfl
  | .binary op left right type, slots => by
    rw [rewriteAggregateRefs]
    split
    · rename_i isKey
      exact keyColumn_plain isKey
    · exact Bool.or_eq_false_iff.mpr ⟨rewriteAggregateRefs_plain groups left _,
        rewriteAggregateRefs_plain groups right _⟩
  | .unary _ operand _, slots | .cast operand _, slots | .extract _ operand _, slots
  | .substring operand _ _ _, slots | .like operand _ _, slots => by
    rw [rewriteAggregateRefs]
    split
    · rename_i isKey
      exact keyColumn_plain isKey
    · exact rewriteAggregateRefs_plain groups operand slots
  | .between value lower upper, slots => by
    rw [rewriteAggregateRefs]
    split
    · rename_i isKey
      exact keyColumn_plain isKey
    · exact Bool.or_eq_false_iff.mpr ⟨Bool.or_eq_false_iff.mpr ⟨rewriteAggregateRefs_plain groups value _,
        rewriteAggregateRefs_plain groups lower _⟩, rewriteAggregateRefs_plain groups upper _⟩
  | .caseWhen branches type, slots => by
    rw [rewriteAggregateRefs]
    split
    · rename_i isKey
      exact keyColumn_plain isKey
    · exact rewriteBranchRefs_plain groups branches slots

theorem rewriteBranchRefs_plain (groups : GroupPositions) : (branches : CaseBranches) →
    (slots : AggregateSlots) → branchesHaveAggregate (rewriteBranchRefs groups branches slots).1 = false
  | .done, slots => rfl
  | .otherwise result, slots => rewriteAggregateRefs_plain groups result slots
  | .when condition result rest, slots => by
    rw [rewriteBranchRefs]
    exact Bool.or_eq_false_iff.mpr ⟨Bool.or_eq_false_iff.mpr ⟨rewriteAggregateRefs_plain groups condition _,
      rewriteAggregateRefs_plain groups result _⟩, rewriteBranchRefs_plain groups rest _⟩

end

theorem rewriteSelectList_plain (groups : GroupPositions) (items : List NamedExpression)
    (slots : AggregateSlots) :
    ∀ item ∈ (rewriteSelectList groups items slots).1, hasAggregate item.expr = false := by
  induction items generalizing slots with
  | nil => exact List.forall_mem_nil _
  | cons item rest hypothesis =>
    rw [rewriteSelectList]
    refine List.forall_mem_cons.mpr ⟨?_, hypothesis _⟩
    unfold rewriteSelectItem
    split
    · rfl
    · exact rewriteAggregateRefs_plain groups item.expr slots

/-! ## Plans -/

/-- Outside its aggregations a plan has no aggregate calls, and inside them none is nested. -/
def Confined : LogicalPlan → Prop
  | .scan _ => True
  | .join left right _ _ _ residualPredicate =>
    Confined left ∧ Confined right ∧ ∀ predicate ∈ residualPredicate.toList, hasAggregate predicate = false
  | .filter child predicate => Confined child ∧ hasAggregate predicate = false
  | .projection child items => Confined child ∧ ∀ item ∈ items, hasAggregate item.expr = false
  | .aggregate child groupBy aggregates =>
    Confined child ∧ ∀ item ∈ groupBy ++ aggregates, nestsAggregates item.expr = false
  | .sort child keys => Confined child ∧ ∀ key ∈ keys, hasAggregate key.expr = false
  | .limit child _ => Confined child

/-- A query has aggregate calls only if it aggregates, and then none is nested. -/
def CallsConfined (query : BoundQuery) : Prop :=
  ∀ expression ∈ boundExpressions query,
    if query.isAggregateQuery then nestsAggregates expression = false else hasAggregate expression = false

/-- No item that is sorted by calls an aggregate, unless the statement is an aggregate query. -/
def OrderConfined (stmt : AstSelectStatement) : Prop :=
  isAggregateStatement stmt = true ∨ ∀ item ∈ stmt.orderBy, containsAggregate item.expr = false

theorem confined_filterIf {predicate : Option Expression} {plan : LogicalPlan} (confined : Confined plan)
    (plain : ∀ condition ∈ predicate.toList, hasAggregate condition = false) :
    Confined (filterIf predicate plan) := by
  cases predicate with
  | none => exact confined
  | some condition => exact ⟨confined, plain condition (List.mem_singleton_self condition)⟩

theorem confined_sortIf {keys : List SortKey} {plan : LogicalPlan} :
    Confined (sortIf keys plan) ↔ Confined plan ∧ ∀ key ∈ keys, hasAggregate key.expr = false := by
  unfold sortIf
  split
  · rename_i isEmpty
    rw [List.isEmpty_iff.mp isEmpty]
    exact ⟨fun confined => ⟨confined, List.forall_mem_nil _⟩, And.left⟩
  · rfl

theorem confined_limitIf {limit : Option Int} {plan : LogicalPlan} :
    Confined (limitIf limit plan) ↔ Confined plan := by
  cases limit <;> rfl

theorem rewriteHaving_plain (groups : GroupPositions) (having : Option Expression) (slots : AggregateSlots) :
    ∀ predicate ∈ (rewriteHaving groups having slots).1.toList, hasAggregate predicate = false := by
  cases having with
  | none => exact List.forall_mem_nil _
  | some predicate => exact List.forall_mem_singleton.mpr (rewriteAggregateRefs_plain groups predicate slots)

theorem confined_aggregatePlan {plan : LogicalPlan} {query : BoundQuery} (confined : Confined plan)
    (keys : ∀ key ∈ query.groupBy, nestsAggregates key = false)
    (slots : SlotsHold (fun expression => nestsAggregates expression = false) (plannedSlots query)) :
    Confined (aggregatePlan plan query) := by
  refine ⟨confined_filterIf ⟨confined, ?_⟩ (rewriteHaving_plain _ _ _), rewriteSelectList_plain _ _ _⟩
  refine List.forall_mem_append.mpr ⟨fun item member => ?_, slots⟩
  obtain ⟨key, isKey, rfl⟩ := List.mem_map.mp member
  exact keys key isKey

/-! ## Queries -/

section Clauses

variable {stmt : AstSelectStatement} {scope : Scope} {query : BoundQuery} {groupReferences : List Reference}
  {keys : List GroupKey}

theorem joinPredicates_plain (accepted : AcceptedIn stmt scope query) :
    ∀ predicate ∈ joinPredicates query.join, hasAggregate predicate = false := by
  rcases accepted with ⟨schema, _, ran⟩ | ⟨_, schemas, _, _, ran⟩
  · rw [bindQuery_join ran]
    exact List.forall_mem_nil _
  · obtain ⟨clause, first, rest, steps, _, rfl, bound⟩ := bindJoinQuery_eq_ok ran
    refine joinPredicates_hold bound (bindJoinSteps_hold (fun {_ condition _ _ _ _} _ conditionRan => ?_)
      bound.stepsBound)
    refine extractJoinStepKeys_hold (fun first second => Bool.or_eq_false_iff.mpr ⟨first, second⟩)
      (fun conjunct member => ?_)
    have plain := plain_conjuncts (bind_plain conditionRan) conjunct member
    exact ⟨(shiftColumns_plain _ conjunct plain).2, plain⟩

theorem unnested_clauses (clauses : ClausesBound stmt scope (isAggregateStatement stmt) query groupReferences keys) :
    (∀ item ∈ query.selectList, nestsAggregates item.expr = false) ∧
      (∀ key ∈ query.groupBy, nestsAggregates key = false) ∧
      (∀ key ∈ query.orderBy, nestsAggregates key.expr = false) ∧
      ∀ predicate ∈ query.condition.toList ++ query.having.toList, nestsAggregates predicate = false := by
  obtain ⟨items, groups, sorts⟩ := clauses_hold (fun _ _ _ => rfl) (fun _ => bind_unnested) clauses
  refine ⟨items, groups, sorts, fun predicate member => ?_⟩
  obtain ⟨⟨_, _, ran⟩, _⟩ := conditions_bound clauses predicate member
  exact bind_unnested ran

/-- In a query that aggregates nothing only the sort keys may have aggregate calls. -/
theorem plain_clauses (clauses : ClausesBound stmt scope (isAggregateStatement stmt) query groupReferences keys)
    (notAggregate : isAggregateStatement stmt = false) :
    (∀ item ∈ query.selectList, hasAggregate item.expr = false) ∧ query.groupBy = [] ∧ query.having = none := by
  obtain ⟨noKeys, plain⟩ := plain_of_notAggregate notAggregate clauses
  refine ⟨fun item member => ?_, noKeys, ?_⟩
  · rcases bindSelectList_eq_ok clauses.selectList with ⟨_, _, _, isStarred⟩ | each
    · rw [isStarred] at member
      obtain ⟨_, _, _, rfl⟩ := mem_starItems member
      rfl
    · obtain ⟨written, isWritten, itemBound⟩ := exists_of_mem_right each member
      rw [bind_hasAggregate itemBound.expr, plain written isWritten]
  · rcases optionMapM_eq_ok.mp clauses.having with ⟨_, absent⟩ | ⟨_, _, _, _, ran⟩
    · exact absent
    · rw [notAggregate] at ran
      cases ran

/-- The sort keys have an aggregate call exactly where they were written with one. -/
theorem plain_orderBy (clauses : ClausesBound stmt scope (isAggregateStatement stmt) query groupReferences keys)
    (notAggregate : isAggregateStatement stmt = false) :
    (∀ key ∈ query.orderBy, hasAggregate key.expr = false) ↔ OrderConfined stmt := by
  have each := mapM_eq_ok.mp clauses.orderBy
  have same {item : AstOrderByItem AstSelectStatement} {key : SortKey}
      (ran : bindOrderByItem scope (isAggregateStatement stmt) query.outputSchema item = .ok key) :
      hasAggregate key.expr = containsAggregate item.expr := by
    rw [bindOrderByItem, notAggregate, if_neg Bool.false_ne_true] at ran
    simp only [bind_eq_ok, pure_eq_ok] at ran
    obtain ⟨bound, boundRan, rfl⟩ := ran
    exact bind_hasAggregate boundRan
  constructor
  · refine fun plain => .inr (fun item member => ?_)
    obtain ⟨key, isKey, ran⟩ := exists_of_mem_left each member
    rw [← same ran, plain key isKey]
  · intro confined key member
    have plain := confined.resolve_left (by rw [notAggregate]; exact Bool.false_ne_true)
    obtain ⟨item, isItem, ran⟩ := exists_of_mem_right each member
    rw [same ran, plain item isItem]

/-- Aggregate calls are bound where they belong exactly if none is sorted by outside aggregate queries. -/
theorem callsConfined_iff (accepted : AcceptedIn stmt scope query) :
    CallsConfined query ↔ OrderConfined stmt := by
  obtain ⟨groupReferences, keys, clauses⟩ := clausesBound_of_acceptedIn accepted
  have joined := joinPredicates_plain accepted
  unfold CallsConfined
  rw [clauses.isAggregate]
  cases isAggregate : isAggregateStatement stmt with
  | true =>
    simp only [if_true]
    refine iff_of_true ?_ (.inl isAggregate)
    obtain ⟨items, groups, sorts, conditions⟩ := unnested_clauses clauses
    simp only [boundExpressions, filterPredicates, List.forall_mem_append, List.forall_mem_map]
    refine ⟨⟨⟨items, groups⟩, sorts⟩, List.forall_mem_append.mp conditions, fun predicate member => ?_⟩
    exact nestsAggregates_of_plain predicate (joined predicate member)
  | false =>
    simp only [if_neg Bool.false_ne_true]
    rw [← plain_orderBy clauses isAggregate]
    obtain ⟨items, noKeys, noHaving⟩ := plain_clauses clauses isAggregate
    have condition : ∀ predicate ∈ query.condition.toList, hasAggregate predicate = false :=
      fun predicate member => plain_condition clauses predicate (Option.mem_toList.mp member)
    simp only [boundExpressions, filterPredicates, List.forall_mem_append, List.forall_mem_map, noKeys, noHaving]
    constructor
    · exact fun plain => plain.1.2
    · exact fun sorts => ⟨⟨⟨items, List.forall_mem_nil _⟩, sorts⟩, ⟨condition, List.forall_mem_nil _⟩, joined⟩

/-- Over a source without stray aggregate calls a plan has none, on the same condition. -/
theorem confined_finishLogicalPlan (accepted : AcceptedIn stmt scope query) {source : LogicalPlan}
    (sourceConfined : Confined source) : Confined (finishLogicalPlan source query) ↔ OrderConfined stmt := by
  obtain ⟨groupReferences, keys, clauses⟩ := clausesBound_of_acceptedIn accepted
  have condition : ∀ predicate ∈ query.condition.toList, hasAggregate predicate = false :=
    fun predicate member => plain_condition clauses predicate (Option.mem_toList.mp member)
  have filtered := confined_filterIf sourceConfined condition
  unfold finishLogicalPlan
  rw [confined_limitIf, clauses.isAggregate]
  cases isAggregate : isAggregateStatement stmt with
  | true =>
    rw [if_pos rfl, confined_sortIf]
    refine iff_of_true ⟨?_, fun key member => ?_⟩ (.inl isAggregate)
    · obtain ⟨items, groups, _, conditions⟩ := unnested_clauses clauses
      refine confined_aggregatePlan filtered groups (slotsHold_plannedSlots marks_nested.handedDown items ?_)
      intro predicate isHaving
      exact conditions predicate (List.mem_append_right _ (Option.mem_toList.mpr isHaving))
    · obtain ⟨item, _, ran⟩ := exists_of_mem_mapM clauses.orderBy member
      rw [isAggregate, bindOrderByItem, if_pos rfl] at ran
      simp only [bind_eq_ok, pure_eq_ok] at ran
      obtain ⟨column, columnRan, rfl⟩ := ran
      obtain ⟨_, _, _, rfl⟩ := bindOutputColumn_eq_ok columnRan
      rfl
  | false =>
    rw [if_neg Bool.false_ne_true, ← plain_orderBy clauses isAggregate, Confined, confined_sortIf]
    have items := (plain_clauses clauses isAggregate).1
    exact ⟨fun confined => confined.1.2, fun sorts => ⟨⟨filtered, sorts⟩, items⟩⟩

end Clauses

/-! ## Whole plans -/

theorem confined_joinChain {plan : LogicalPlan} (planConfined : Confined plan)
    {steps : List (BoundJoinStep × JoinInput)}
    (each : ∀ step ∈ steps, (∀ predicate ∈ stepPredicates step.1, hasAggregate predicate = false) ∧
      ∀ source, step.2 = .derived source → Confined source) : Confined (joinChain plan steps) := by
  induction steps generalizing plan with
  | nil => exact planConfined
  | cons step rest hypothesis =>
    obtain ⟨⟨predicates, derived⟩, restEach⟩ := List.forall_mem_cons.mp each
    obtain ⟨prefilter, residual⟩ := List.forall_mem_append.mp predicates
    refine hypothesis ⟨planConfined, confined_filterIf ?_ prefilter, residual⟩ restEach
    obtain ⟨step, input⟩ := step
    cases input with
    | table schema partitionColumns => exact trivial
    | derived source => exact derived source rfl

/-- The plans of accepted statements that meet a condition, over tables, derived tables and join chains. -/
inductive PlannedFrom (allowed : AstSelectStatement → Prop) : LogicalPlan → Prop
  | table {stmt : AstSelectStatement} {schema : Schema} {query : BoundQuery}
      (partitionColumns : List PartitionColumn) (isAllowed : allowed stmt)
      (bound : bindQuery stmt schema = .ok query) :
      PlannedFrom allowed (buildLogicalPlan query schema partitionColumns)
  | derived {stmt : AstSelectStatement} {source : LogicalPlan} {query : BoundQuery} (isAllowed : allowed stmt)
      (planned : PlannedFrom allowed source) (bound : bindQuery stmt source.outputSchema = .ok query) :
      PlannedFrom allowed (buildOverPlan query source)
  | joined {stmt : AstSelectStatement} {inputs : List JoinInput} {query : BoundQuery} {plan : LogicalPlan}
      (isAllowed : allowed stmt)
      (planned : ∀ source, JoinInput.derived source ∈ inputs → PlannedFrom allowed source)
      (bound : bindJoinQuery stmt (inputs.map JoinInput.schema) = .ok query)
      (built : buildJoinPlan query inputs = .ok plan) : PlannedFrom allowed plan

/-- If nothing is sorted by an aggregate call outside aggregate queries, the executor meets aggregate calls
in aggregations only. -/
theorem PlannedFrom.confined {plan : LogicalPlan} (planned : PlannedFrom OrderConfined plan) : Confined plan := by
  induction planned with
  | @table stmt schema query partitionColumns isAllowed bound =>
    have accepted : AcceptedIn stmt (.table schema) query := .inl ⟨schema, rfl, bound⟩
    have scanned : Confined (.scan (.make query.sourcePaths schema partitionColumns)) := trivial
    exact (confined_finishLogicalPlan accepted scanned).mpr isAllowed
  | @derived stmt source query isAllowed _ bound sourceConfined =>
    have accepted : AcceptedIn stmt (.table source.outputSchema) query := .inl ⟨_, rfl, bound⟩
    exact (confined_finishLogicalPlan accepted sourceConfined).mpr isAllowed
  | @joined stmt inputs query plan isAllowed _ bound built sourcesConfined =>
    obtain ⟨clause, firstSchema, restSchemas, steps, isJoin, isCons, joinBound⟩ := bindJoinQuery_eq_ok bound
    have accepted : AcceptedIn stmt (.join (joinSources clause (inputs.map JoinInput.schema))) query :=
      .inr ⟨clause, _, isJoin, rfl, bound⟩
    obtain ⟨first, rest, rfl, _, _⟩ := List.map_eq_cons_iff.mp isCons
    simp only [buildJoinPlan, joinBound.join] at built
    split at built
    · cases built
    obtain rfl := Except.ok.inj built
    have scanned : Confined (.scan (.make clause.first.paths first.schema first.partitionColumns)) := trivial
    have chained : Confined (buildJoinSource ⟨clause.first.paths, steps⟩ first rest) := by
      refine confined_joinChain scanned (fun step member => ?_)
      obtain ⟨inSteps, inInputs⟩ := List.of_mem_zip member
      constructor
      · intro predicate isPredicate
        apply joinPredicates_plain accepted
        simp only [joinPredicates, joinBound.join, Option.toList_some, List.flatMap_singleton]
        exact List.mem_flatMap.mpr ⟨step.1, inSteps, isPredicate⟩
      · intro source isDerived
        exact sourcesConfined source (List.mem_cons_of_mem _ (isDerived ▸ inInputs))
    exact (confined_finishLogicalPlan accepted chained).mpr isAllowed

/-- Aggregate calls are confined to aggregate queries and to the aggregations of their plans exactly if no
other statement is sorted by one. -/
theorem aggregates_confined_iff {stmt : AstSelectStatement} {scope : Scope} {query : BoundQuery}
    (accepted : AcceptedIn stmt scope query) :
    (CallsConfined query ↔ OrderConfined stmt) ∧
      (∀ source, Confined source → (Confined (finishLogicalPlan source query) ↔ OrderConfined stmt)) ∧
      ∀ plan, PlannedFrom OrderConfined plan → Confined plan :=
  ⟨callsConfined_iff accepted, fun _ => confined_finishLogicalPlan accepted, fun _ => PlannedFrom.confined⟩

/-- `SELECT k, SUM(x) / COUNT(*) AS mean ... GROUP BY k HAVING SUM(x) > k` -/
theorem aggregates_confined_iff_grouped :
    ∃ query, bindQuery groupedStatement readings.schema = .ok query ∧ CallsConfined query ∧
      ∃ plan, PlannedFrom OrderConfined plan ∧ Confined plan := by
  have accepted : AcceptedIn groupedStatement (.table readings.schema) _ := .inl ⟨readings.schema, rfl, rfl⟩
  have planned : PlannedFrom OrderConfined (buildLogicalPlan _ readings.schema []) :=
    @PlannedFrom.table _ groupedStatement _ _ [] (.inl rfl) rfl
  obtain ⟨calls, _, plans⟩ := aggregates_confined_iff accepted
  exact ⟨_, rfl, calls.mpr (.inl rfl), _, planned, plans _ planned⟩

/-- `SELECT k FROM read_parquet('readings.parquet') ORDER BY SUM(x)` -/
def orderedStatement : AstSelectStatement where
  selectList := [⟨.columnRef "k" none, none⟩]
  source := ⟨["readings.parquet"], none⟩
  orderBy := [⟨.aggregate .sum (.columnRef "x" none), true⟩]

/-- The sum is sorted by, and no aggregation computes it. -/
theorem ordered_unconfined :
    (¬ ∀ (stmt : AstSelectStatement) (scope : Scope) (query : BoundQuery), AcceptedIn stmt scope query →
      CallsConfined query) ∧
    ¬ ∀ plan, PlannedFrom (fun _ => True) plan → Confined plan := by
  constructor
  · intro confined
    have calls := confined orderedStatement (.table readings.schema) _ (.inl ⟨readings.schema, rfl, rfl⟩)
    revert calls
    unfold CallsConfined
    decide
  · intro confined
    have planned : PlannedFrom (fun _ => True) (buildLogicalPlan _ readings.schema []) :=
      @PlannedFrom.table _ orderedStatement _ _ [] trivial rfl
    obtain ⟨⟨_, keys⟩, _⟩ := confined _ planned
    have key := keys _ (List.mem_singleton_self _)
    cases key

end KernelLake.AggregateConfinement
