import KernelLake.CorrelationKeys
import KernelLake.IndexRewriting
import KernelLake.NullableFlags

/-!
What the derived table of a correlated subquery holds.

It has a row for each group of the subquery's own rows that pass the conditions without a correlation: the values of
the group's keys and, behind them, the subquery's value for the group.
-/

namespace KernelLake.DerivedTables

open KernelLake.Types KernelLake.Expressions KernelLake.Evaluation KernelLake.LogicalPlans KernelLake.SqlAst
open KernelLake.Binder KernelLake.QueryBinding KernelLake.QueryBindingProofs KernelLake.JoinBinding
open KernelLake.LogicalPlanner KernelLake.PlanSemantics KernelLake.PlannedRows KernelLake.ColumnProofs
open KernelLake.Optimizer KernelLake.RequiredColumns KernelLake.RemapProofs KernelLake.IndexRewriting
open KernelLake.BindingProofs KernelLake.PlannedColumns KernelLake.AggregatePlanning KernelLake.UnqualifiedNames
open KernelLake.ExistsRewriting KernelLake.ExistsRewritingProofs KernelLake.ScalarDecorrelation
open KernelLake.GroupingCheck (names_nodup)
open KernelLake.Library.Relations KernelLake.Library.Results

/-! ## Rows without their last columns -/

section Cut

variable {width : Nat}

theorem columnValue_take {index : Nat} (within : index < width) (row : Row) :
    columnValue (row.take width) index = columnValue row index := by
  simp only [columnValue, List.getD_eq_getElem?_getD, List.getElem?_take_of_lt within]

/-- An expression over the first columns of a row does not see the others. -/
theorem eval_take {expression : Expression} (within : refersWithin width (collectColumns expression)) (row : Row) :
    eval expression (row.take width) = eval expression row :=
  evalIn_congr none expression (fun index member => columnValue_take (within index member) row)

theorem eval_append {expression : Expression} (within : refersWithin width (collectColumns expression)) {row : Row}
    (isWidth : row.length = width) (more : Row) : eval expression (row ++ more) = eval expression row := by
  rw [← eval_take within, List.take_left' isWidth]

theorem evalIn_take {expression : Expression} (within : refersWithin width (collectColumns expression))
    (members : List Row) (row : Row) :
    evalIn (some (members.map (List.take width))) (row.take width) expression =
      evalIn (some members) row expression := by
  have agree (row : Row) : AgreeOn ownPlace (collectColumns expression) row (row.take width) := by
    intro name index member place isPlace
    obtain rfl := Except.ok.inj isPlace
    exact columnValue_take (within index member) row
  apply collectColumns_sameValue
  refine ⟨agree row, .some ?_⟩
  rw [List.forall₂_map_right_iff]
  exact List.forall₂_same.mpr (fun row _ => agree row)

theorem groupValue_take {expression : Expression} (within : refersWithin width (collectColumns expression))
    (key key' : Row) (members : List Row) :
    groupValue (key', members.map (List.take width)) expression = groupValue (key, members) expression := by
  have representatives : representative (key', members.map (List.take width)) =
      (representative (key, members)).take width := by
    cases members with
    | nil => exact List.take_nil.symm
    | cons row rest => rfl
  rw [groupValue, representatives]
  exact evalIn_take within members _

theorem projectRow_take {items : List NamedExpression} (within : refersWithin width (collectItemColumns items))
    (row : Row) : projectRow items (row.take width) = projectRow items row := by
  refine List.map_congr_left (fun item member => eval_take (fun index inItem => ?_) row)
  exact within index (List.mem_flatMap_of_mem member inItem)

theorem sortRows_take {keys : List SortKey} (within : refersWithin width (collectKeyColumns keys))
    (input : List Row) : sortRows keys (input.map (List.take width)) = (sortRows keys input).map (List.take width) := by
  refine (List.map_insertionSort _ _ (List.take width) input (fun left _ right _ => ?_)).symm
  have same : sortedBefore keys (left.take width) (right.take width) = sortedBefore keys left right := by
    induction keys with
    | nil => rfl
    | cons key keys hypothesis =>
      obtain ⟨keyWithin, othersWithin⟩ := refersWithin_append.mp within
      simp only [sortedBefore, eval_take keyWithin, hypothesis othersWithin]
  rw [same]

theorem aggregateRows_take {groupBy aggregates : List NamedExpression}
    (within : refersWithin width (collectItemColumns groupBy ++ collectItemColumns aggregates)) (input : List Row) :
    aggregateRows groupBy aggregates (input.map (List.take width)) = aggregateRows groupBy aggregates input := by
  obtain ⟨keysWithin, aggregatesWithin⟩ := refersWithin_append.mp within
  have output (key : Row) (members : List Row) :
      groupOutput aggregates (key, members.map (List.take width)) = groupOutput aggregates (key, members) := by
    refine congrArg (key ++ ·) (List.map_congr_left (fun item member => ?_))
    have itemWithin : refersWithin width (collectColumns item.expr) :=
      fun index inItem => aggregatesWithin index (List.mem_flatMap_of_mem member inItem)
    have same := evalIn_take itemWithin members []
    rwa [List.take_nil] at same
  unfold aggregateRows aggregateGroups
  split
  · rw [List.map_singleton, List.map_singleton, output]
  · rw [RemapProofs.groupRows_map (projectRow_take keysWithin), List.map_map]
    exact List.map_congr_left (fun group _ => output group.1 group.2)

/-- The clauses of a query make of rows what they make of the columns that they read. -/
theorem queryRows_take {query : BoundQuery} (reads : ReadsSource width query) (input : List Row) :
    queryRows query (input.map (List.take width)) = queryRows query input := by
  have filtered : filterRowsIf query.condition (input.map (List.take width)) =
      (filterRowsIf query.condition input).map (List.take width) := by
    simp only [filterRowsIf_eq, List.filter_map, Function.comp_def]
    refine congrArg _ (List.filter_congr (fun row _ => ?_))
    cases isCondition : query.condition with
    | none => rfl
    | some condition => simp only [Option.all_some, eval_take (reads.condition condition isCondition).2]
  unfold queryRows
  simp only [filtered]
  cases aggregates : query.isAggregateQuery with
  | true =>
    have same := aggregateRows_take (reads.aggregated aggregates) (filterRowsIf query.condition input)
    simp only [if_true, aggregatedRows, plannedSlots] at same ⊢
    rw [same]
  | false =>
    simp only [Bool.false_eq_true, if_false, sortRows_take (reads.sorted aggregates), List.map_map]
    refine congrArg _ (List.map_congr_left (fun row _ => ?_))
    exact projectRow_take (reads.selected aggregates) row

end Cut

/-! ## Names without their qualifiers -/

section Names

variable {Statement : Type} (rewrite : Reference → Reference)

mutual

theorem references_mapReferences : (expression : AstExpr Statement) →
    references (mapReferences rewrite expression) = (references expression).map rewrite
  | .columnRef .. | .star | .literal _ | .countStar | .subquery _ | .exists .. => rfl
  | .binary _ left right => by
    simp only [mapReferences, references, List.map_append, references_mapReferences left,
      references_mapReferences right]
  | .unary _ operand | .cast operand _ _ _ | .extract _ operand | .substring operand _ _
  | .inSubquery operand _ _ | .aggregate _ operand | .like operand _ _ => references_mapReferences operand
  | .between value lower upper => by
    simp only [mapReferences, references, List.map_append, references_mapReferences value,
      references_mapReferences lower, references_mapReferences upper]
  | .inList value list _ => by
    simp only [mapReferences, references, List.map_append, references_mapReferences value,
      listReferences_mapReferences list]
  | .caseWhen condition result rest => by
    simp only [mapReferences, references, List.map_append, references_mapReferences condition,
      references_mapReferences result, branchReferences_mapReferences rest]

theorem listReferences_mapReferences : (list : AstExprList Statement) →
    listReferences (mapListReferences rewrite list) = (listReferences list).map rewrite
  | .nil => rfl
  | .cons head tail => by
    simp only [mapListReferences, listReferences, List.map_append, references_mapReferences head,
      listReferences_mapReferences tail]

theorem branchReferences_mapReferences : (branches : AstBranches Statement) →
    branchReferences (mapBranchReferences rewrite branches) = (branchReferences branches).map rewrite
  | .done => rfl
  | .otherwise result => references_mapReferences result
  | .when condition result rest => by
    simp only [mapBranchReferences, branchReferences, List.map_append, references_mapReferences condition,
      references_mapReferences result, branchReferences_mapReferences rest]

end

theorem collectAndConjuncts_mapReferences (expression : AstExpr Statement) :
    collectAndConjuncts (mapReferences rewrite expression) =
      (collectAndConjuncts expression).map (mapReferences rewrite) := by
  fun_induction collectAndConjuncts expression with
  | case1 left right leftHypothesis rightHypothesis =>
    rw [mapReferences, collectAndConjuncts, leftHypothesis, rightHypothesis, List.map_append]
  | case2 expression notAnd =>
    cases expression with
    | binary op left right =>
      cases op with
      | and => exact absurd rfl (notAnd left right)
      | _ => rfl
    | _ => rfl

end Names

section Lookups

variable {inner outer : List JoinSource} {reference : Reference} {column : Expression}

/-- A name that the sources of a subquery have is one of their own. -/
theorem bindInnerFirst_own (ran : bindColumnRef (.join inner) reference = .ok column) :
    bindInnerFirst inner outer reference = .ok column := by
  obtain ⟨number, position, denotes, _⟩ := bindColumnRef_denotes ran
  cases denotes with
  | @qualified table name _ _ source found isAlias first present =>
    have own : inner.any (fun source => source.tableAlias = table) = true :=
      List.any_eq_true.mpr ⟨source, List.mem_of_getElem? found, decide_eq_true isAlias⟩
    simp only [bindInnerFirst, own, if_true]
    exact ran
  | @plain name _ _ source found present unique =>
    have own : inner.any (fun source => (source.schema.findField name).isSome) = true :=
      List.any_eq_true.mpr ⟨source, List.mem_of_getElem? found, by rw [present]; rfl⟩
    simp only [bindInnerFirst, own, if_true]
    exact ran

/-- A qualifier that no source of a subquery has is one of a source around it. -/
theorem bindInnerFirst_outer {table : String} (isTable : reference.table = some table)
    (foreign : ∀ source ∈ inner, source.tableAlias ≠ table) :
    bindInnerFirst inner outer reference = (bindColumnRef (.join outer) reference).map (behind (widthOf inner)) := by
  have notOwn : inner.any (fun source => source.tableAlias = table) = false := by
    simpa using foreign
  simp only [bindInnerFirst, isTable, notOwn, Bool.false_eq_true, if_false]

/-- In a single source a name is found with its qualifier as it is found without. -/
theorem bindInnerFirst_unqualified {source : JoinSource}
    (own : reference.table = none ∨ reference.table = some source.tableAlias)
    (ran : bindColumnRef (.join [source]) { reference with table := none } = .ok column) :
    bindInnerFirst [source] outer reference = .ok column := by
  obtain ⟨name, table⟩ := reference
  apply bindInnerFirst_own
  rcases own with rfl | rfl
  · exact ran
  · obtain ⟨number, position, denotes, place⟩ := bindColumnRef_denotes ran
    obtain ⟨found, field, held, isField, rfl⟩ := place
    cases denotes with
    | plain held' present unique =>
      obtain rfl := Option.some.inj (held.symm.trans held')
      cases number with
      | succ number => cases held
      | zero =>
        obtain rfl := Option.some.inj held
        simp only [bindColumnRef, resolveQualified, if_true, Option.getD_some, resolveColumn, present, isField]
        rfl

end Lookups

/-! ## The derived table -/

theorem forall₂_append_left {α β : Type} {related : α → β → Prop} {first second : List α} {others : List β}
    (all : List.Forall₂ related (first ++ second) others) :
    ∃ ofFirst ofSecond, others = ofFirst ++ ofSecond ∧ List.Forall₂ related first ofFirst ∧
      List.Forall₂ related second ofSecond :=
  ⟨_, _, (List.take_append_drop first.length others).symm, (List.forall₂_take_append _ _ _ all.flip).flip,
    (List.forall₂_drop_append _ _ _ all.flip).flip⟩

/-- The columns of a planned query have the names and types of its select list. -/
theorem outputSchema_finishLogicalPlan (source : LogicalPlan) (query : BoundQuery) :
    (finishLogicalPlan source query).outputSchema = namedFields query.selectList := by
  have limited (plan : LogicalPlan) : (limitIf query.limit plan).outputSchema = plan.outputSchema := by
    cases query.limit <;> rfl
  have sorted (plan : LogicalPlan) : (sortIf query.orderBy plan).outputSchema = plan.outputSchema := by
    unfold sortIf
    split <;> rfl
  have rewritten (groups : GroupPositions) (items : List NamedExpression) (slots : AggregateSlots) :
      namedFields (rewriteSelectList groups items slots).1 = namedFields items := by
    induction items generalizing slots with
    | nil => rfl
    | cons item rest hypothesis =>
      rw [rewriteSelectList, namedFields, namedFields, List.map_cons, List.map_cons, ← namedFields, ← namedFields,
        hypothesis]
      congr 1
      unfold rewriteSelectItem
      split
      · rfl
      · rw [NullableFlags.resultType_rewriteAggregateRefs]
  rw [finishLogicalPlan, limited]
  cases query.isAggregateQuery with
  | true =>
    rw [if_pos rfl, sorted]
    exact rewritten _ _ _
  | false => rfl

/-- The values of some columns. -/
def keyOf (columns : List Expression) (row : Row) : Row :=
  columns.map (fun column => eval column row)

/-- The row of a group: its key and, behind it, a value over its rows. -/
def groupRow (value : Expression) (group : Row × List Row) : Row :=
  group.1 ++ [groupValue group value]

section Subquery

variable (catalog : Catalog) (tables : Tables) (sub : AstSelectStatement) (keys : List (Reference × Reference))
  (remaining : List SqlExpr) (item : SqlExpr)

/-- A name as the derived table of a subquery has it. -/
def adaptReference (inner : AstSelectStatement) (reference : Reference) : Reference :=
  if inner.join.isNone then { reference with table := none } else reference

/-- What a derived table is made of: the columns of its keys, the conditions on its rows, and its value. -/
structure DerivedFrom (plan : LogicalPlan) (innerRows : List Row) (columns bounds : List Expression)
    (value : Expression) : Prop where
  sourced : sourceRows catalog tables sub = .ok innerRows
  columnsBound : List.Forall₂ (fun key column =>
    bindColumnRef (.join (sourcesOf catalog sub)) (adaptReference sub key.2) = .ok column) keys columns
  boundsBound : List.Forall₂ (fun conjunct bound =>
    bind (.join (sourcesOf catalog sub)) false (adapt sub conjunct) = .ok bound) remaining bounds
  valueBound : bind (.join (sourcesOf catalog sub)) true (adapt sub item) = .ok value
  names : (plan.outputSchema.map Field.name).Nodup
  schema : plan.outputSchema = columns.zipIdx.map (fun (column, number) =>
    ⟨ScalarDecorrelation.keyColumn number, column.resultType⟩) ++ [⟨valueColumn, value.resultType⟩]
  rows : rows tables plan =
    (groupRows (keyOf columns) (innerRows.filter (passesAll bounds))).map (groupRow value)

variable {catalog tables sub keys remaining item}

theorem adapt_columnRef (reference : Reference) :
    adapt sub (columnRef reference) = columnRef (adaptReference sub reference) := by
  unfold adapt adaptReference
  split <;> rfl

theorem collectAndConjuncts_adapt (expression : SqlExpr) :
    collectAndConjuncts (adapt sub expression) = (collectAndConjuncts expression).map (adapt sub) := by
  unfold adapt
  cases sub.join.isNone with
  | true => exact collectAndConjuncts_mapReferences _ expression
  | false => exact (List.map_id' _).symm

theorem sourcesOf_derived (notDerived : sub.fromSubquery = none) :
    sourcesOf catalog (derivedSelect sub keys remaining item) = sourcesOf catalog sub := by
  unfold sourcesOf
  cases isJoin : sub.join with
  | some clause => simp only [derivedSelect, isJoin]
  | none => simp only [derivedSelect, isJoin, notDerived]

theorem sourceRows_derived (notDerived : sub.fromSubquery = none) :
    sourceRows catalog tables (derivedSelect sub keys remaining item) = sourceRows catalog tables sub := by
  have sources : sourcesOf catalog (derivedSelect sub keys remaining item) = sourcesOf catalog sub :=
    sourcesOf_derived notDerived
  unfold sourceRows
  rw [sources]
  cases isJoin : sub.join with
  | some clause => simp only [derivedSelect, isJoin]
  | none => simp only [derivedSelect, isJoin, notDerived]

/-- The items of the keys are their columns, under the names of the key columns. -/
theorem keyItems_bound {scope : Scope} {start : Nat} {keyItems : List NamedExpression}
    (bound : List.Forall₂ (ItemBound scope) ((keys.zipIdx start).map (fun (key, number) =>
      ⟨adapt sub (columnRef key.2), some (ScalarDecorrelation.keyColumn number)⟩)) keyItems) :
    List.Forall₂ (fun key item => bindColumnRef scope (adaptReference sub key.2) = .ok item.expr) keys keyItems ∧
      keyItems = ((keyItems.map NamedExpression.expr).zipIdx start).map (fun (column, number) =>
        ⟨column, ScalarDecorrelation.keyColumn number⟩) := by
  induction keys generalizing start keyItems with
  | nil =>
    cases bound
    exact ⟨.nil, rfl⟩
  | cons key keys hypothesis =>
    rw [List.zipIdx_cons, List.map_cons] at bound
    cases bound with
    | @cons _ item _ keyItems itemBound restBound =>
      obtain ⟨columns, named⟩ := hypothesis restBound
      have column : bind scope true (adapt sub (columnRef key.2)) = .ok item.expr := itemBound.expr
      rw [adapt_columnRef] at column
      refine ⟨.cons column columns, ?_⟩
      rw [List.map_cons, List.zipIdx_cons, List.map_cons, ← named]
      congr 1
      obtain ⟨expr, name⟩ := item
      have isName : name = _ := itemBound.name
      rw [isName]
      rfl

section Planned

variable {query : BoundQuery} {groupReferences : List Reference} {groupKeys : List GroupKey} {scope : Scope}
  {keyItems : List NamedExpression}
  (clauses : ClausesBound (derivedSelect sub keys remaining item) scope true query groupReferences groupKeys)
include clauses

/-- The derived table is grouped by the columns of its keys. -/
theorem groupBy_derived
    (columns : List.Forall₂ (fun key item => bindColumnRef scope (adaptReference sub key.2) = .ok item.expr)
      keys keyItems) : query.groupBy = keyItems.map NamedExpression.expr := by
  have written : (derivedSelect sub keys remaining item).groupBy.mapM groupByReference =
      .ok (keys.map (fun key => adaptReference sub key.2)) := by
    simp only [derivedSelect, adapt_columnRef]
    apply mapM_eq_ok.mpr
    rw [List.forall₂_map_left_iff, List.forall₂_map_right_iff]
    exact List.forall₂_same.mpr (fun key _ => rfl)
  obtain rfl := Except.ok.inj (clauses.keysWritten.symm.trans written)
  have bound := mapM_eq_ok.mp clauses.keysBound
  rw [List.forall₂_map_left_iff] at bound
  rw [clauses.groupBy]
  clear clauses written
  induction columns generalizing groupKeys with
  | nil =>
    cases bound
    rfl
  | @cons key item _ _ columnRan _ hypothesis =>
    cases bound with
    | @cons _ groupKey _ _ keyRan restBound =>
      have isColumn : groupKey.expr = item.expr := by
        rcases bindGroupKey_eq_ok keyRan with ⟨found, _⟩ | ⟨_, _, _, _, _, noColumn⟩
        · exact Except.ok.inj (found.symm.trans columnRan)
        · rw [namesColumn_of_resolved columnRan] at noColumn
          cases noColumn
      rw [List.map_cons, List.map_cons, isColumn, hypothesis restBound]

/-- The rows of the derived table, one for each group. -/
theorem queryRows_derived {value : Expression} {name : String}
    (recognised : Recognised query.groupBy (visitedParts query)) (someKey : keys ≠ [])
    (columns : List.Forall₂ (fun key item => bindColumnRef scope (adaptReference sub key.2) = .ok item.expr)
      keys keyItems)
    (items : List.Forall₂ (ItemBound scope) (derivedSelect sub keys remaining item).selectList query.selectList)
    (isList : query.selectList = keyItems ++ [⟨value, name⟩]) (input : List Row) :
    queryRows query input =
      (groupRows (keyOf (keyItems.map NamedExpression.expr)) (filterRowsIf query.condition input)).map
        (groupRow value) := by
  have grouped := groupBy_derived clauses columns
  have noLimit : query.limit = none := clauses.limit
  have noHaving : query.having = none := (Except.ok.inj clauses.having).symm
  have noOrder : query.orderBy = [] := (Except.ok.inj clauses.orderBy).symm
  have isKey (row : Row) : projectRow (groupPositions query.groupBy).groupBy row =
      keyOf (keyItems.map NamedExpression.expr) row := by
    rw [grouped]
    simp only [projectRow, groupPositions, keyOf, List.map_map, Function.comp_def]
  have someGroup : (groupPositions query.groupBy).groupBy.isEmpty = false := by
    cases columns with
    | nil => exact absurd rfl someKey
    | cons _ _ =>
      rw [grouped]
      rfl
  have rowsGrouped : aggregateGroups (groupPositions query.groupBy).groupBy (filterRowsIf query.condition input) =
      groupRows (keyOf (keyItems.map NamedExpression.expr)) (filterRowsIf query.condition input) := by
    unfold aggregateGroups
    rw [someGroup, if_neg Bool.false_ne_true, funext isKey]
  rw [queryRows, noLimit, noOrder, clauses.isAggregate, if_pos rfl, sortRows_nil,
    aggregatedRows_eq recognised (covered_of_items clauses items) (having_grouped clauses), directRows, noHaving]
  change List.map _ (List.filter (fun _ => true) _) = _
  rw [List.filter_true, ← rowsGrouped]
  refine List.map_congr_left (fun group member => ?_)
  rw [isList, List.map_append, groupRow, groupKey_representative member, isKey]
  refine congrArg (· ++ _) ?_
  rw [keyOf, List.map_map]
  refine List.map_congr_left (fun keyItem isItem => ?_)
  exact evalIn_plain _ _ _ (recognised.plain _ (grouped ▸ List.mem_map_of_mem isItem))

end Planned

/-- A planned derived table has a row for each group of the subquery's rows, with the columns of its keys. -/
theorem exists_derivedFrom {query : BoundQuery} {plan : LogicalPlan}
    (tablesOnly : CompiledStatements.overTables sub = true)
    (notDerived : sub.fromSubquery = none) (someKey : keys ≠ [])
    (single : ∀ conjunct ∈ remaining, collectAndConjuncts conjunct = [conjunct])
    (planned : planStatement catalog (derivedSelect sub keys remaining item) = .ok (query, plan))
    (recognised : Recognised query.groupBy (visitedParts query)) (tables : Tables) :
    ∃ innerRows columns bounds value,
      DerivedFrom catalog tables sub keys remaining item plan innerRows columns bounds value := by
  obtain ⟨innerRows, groupReferences, groupKeys, sourced, clauses, isRows⟩ := planStatement_eq_ok planned tables
  rw [sourceRows_derived notDerived] at sourced
  have aggregates : isAggregateStatement (derivedSelect sub keys remaining item) = true := by
    simp [isAggregateStatement, derivedSelect, someKey]
  rw [aggregates] at clauses
  have narrows (written : List Reference) : Narrows (planScope catalog (derivedSelect sub keys remaining item))
      (.join (sourcesOf catalog sub)) written := by
    have found := (narrows_planScope catalog (derivedSelect sub keys remaining item) written).1
    rwa [sourcesOf_derived notDerived] at found
  obtain ⟨source, _, isPlan, _⟩ := CompiledStatements.planStatement_source
    (show CompiledStatements.overTables _ = true by
      unfold CompiledStatements.overTables at tablesOnly ⊢
      cases isJoin : sub.join <;> simp_all [derivedSelect]) planned tables
  obtain ⟨bounds, boundsRan, filtered⟩ := filterRowsIf_conjuncts clauses.condition
  have conjuncts : whereConjuncts (derivedSelect sub keys remaining item) = remaining.map (adapt sub) := by
    refine collectAndConjuncts_rebuildAnd (fun conjunct member => ?_)
    obtain ⟨written, isWritten, rfl⟩ := List.mem_map.mp member
    rw [collectAndConjuncts_adapt, single written isWritten]
    rfl
  rw [conjuncts] at boundsRan
  have boundsBound := mapM_eq_ok.mp boundsRan
  rw [List.forall₂_map_left_iff] at boundsBound
  rcases bindSelectList_eq_ok clauses.selectList with ⟨star, isStar, _⟩ | items
  · cases keys with
    | nil => exact absurd rfl someKey
    | cons key others => simp [derivedSelect] at isStar
  · obtain ⟨keyItems, valueItems, isList, keysBound, valuesBound⟩ := forall₂_append_left items
    obtain ⟨columns, named⟩ := keyItems_bound keysBound
    cases valuesBound with
    | @cons _ valueItem _ others valueBound noneBound =>
      cases noneBound
      obtain ⟨value, valueName⟩ := valueItem
      obtain rfl : valueName = valueColumn := valueBound.name
      have value' : bind _ true (adapt sub item) = .ok value := valueBound.expr
      have isSchema : plan.outputSchema = namedFields query.selectList := by
        rw [isPlan]
        exact outputSchema_finishLogicalPlan source query
      refine ⟨innerRows, keyItems.map NamedExpression.expr, bounds, value, sourced, ?_, ?_, ?_, ?_, ?_, ?_⟩
      · rw [List.forall₂_map_right_iff]
        exact columns.imp (fun key item found => (narrows [_]).names _ (List.mem_singleton_self _) _ found)
      · exact boundsBound.imp (fun conjunct bound ran => bind_narrows (narrows _) ran)
      · exact bind_narrows (narrows _) value'
      · rw [isSchema, namedFields, List.map_map]
        exact names_nodup clauses.selectList
      · rw [isSchema, isList, namedFields, List.map_append]
        refine congrArg (· ++ _) ?_
        conv_lhs => rw [named]
        rw [List.map_map]
        rfl
      · rw [isRows, queryRows_derived clauses recognised someKey columns items isList, filtered]

/-! ## Names in the derived table -/

theorem findField_of_nodup {schema : Schema} {position : Nat} {field : Field}
    (distinct : (schema.map Field.name).Nodup) (held : schema[position]? = some field) :
    schema.findField field.name = some position := by
  obtain ⟨inside, rfl⟩ := List.getElem?_eq_some_iff.mp held
  apply List.findIdx?_eq_some_iff_getElem.mpr
  refine ⟨inside, decide_eq_true rfl, fun earlier before same => ?_⟩
  have sameName : (schema.map Field.name)[earlier]? = (schema.map Field.name)[position]? := by
    simpa [before.trans inside, inside] using same
  exact absurd ((List.getElem?_inj (by simpa using before.trans inside) distinct).mp sameName) (Nat.ne_of_lt before)

section Schema

variable {plan : LogicalPlan} {innerRows : List Row} {columns bounds : List Expression} {value : Expression}
  (derived : DerivedFrom catalog tables sub keys remaining item plan innerRows columns bounds value)
include derived

theorem resolveColumn_key {number : Nat} {column : Expression} (held : columns[number]? = some column)
    (offset : Nat) :
    resolveColumn plan.outputSchema offset (ScalarDecorrelation.keyColumn number) =
      .ok (.column (ScalarDecorrelation.keyColumn number) (offset + number) column.resultType) := by
  have isField : plan.outputSchema[number]? =
      some ⟨ScalarDecorrelation.keyColumn number, column.resultType⟩ := by
    have inside := (List.getElem?_eq_some_iff.mp held).1
    rw [derived.schema, List.getElem?_append_left (by simpa using inside)]
    simp [held]
  have found := findField_of_nodup derived.names isField
  simp only at found
  rw [resolveColumn, found]
  simp only [isField]

theorem resolveColumn_value (offset : Nat) :
    resolveColumn plan.outputSchema offset valueColumn =
      .ok (.column valueColumn (offset + columns.length) value.resultType) := by
  have isField : plan.outputSchema[columns.length]? = some ⟨valueColumn, value.resultType⟩ := by
    rw [derived.schema, List.getElem?_append_right (by simp)]
    simp
  have found := findField_of_nodup derived.names isField
  simp only at found
  rw [resolveColumn, found]
  simp only [isField]

end Schema

/-! ## The subquery as it is written -/

section Written

variable {outer : List JoinSource} (notDerived : sub.fromSubquery = none)
  (aliased : sub.join = none → sub.source.tableAlias.isSome = true)
include notDerived aliased

/-- A name that the derived table finds is found in the subquery's own sources. -/
theorem bindInnerFirst_adapted {reference : Reference} {column : Expression}
    (own : sub.join = none → reference.table = none ∨ reference.table = sub.source.tableAlias)
    (ran : bindColumnRef (.join (sourcesOf catalog sub)) (adaptReference sub reference) = .ok column) :
    bindInnerFirst (sourcesOf catalog sub) outer reference = .ok column := by
  cases isJoin : sub.join with
  | some clause =>
    rw [adaptReference, isJoin] at ran
    exact bindInnerFirst_own ran
  | none =>
    have isSources : sourcesOf catalog sub = [tableSource catalog sub.source] := by
      unfold sourcesOf
      rw [isJoin, notDerived]
      rfl
    rw [adaptReference, isJoin, isSources] at ran
    rw [isSources]
    refine bindInnerFirst_unqualified ?_ ran
    obtain ⟨name, isName⟩ := Option.isSome_iff_exists.mp (aliased isJoin)
    have sameAlias : sub.source.tableAlias = some (tableSource catalog sub.source).tableAlias := by
      rw [tableSource, isName]
      rfl
    rw [← sameAlias]
    exact own isJoin

/-- An expression of the subquery is bound as in the derived table. -/
theorem bindWith_adapted {allowAggregates : Bool} {expression : SqlExpr} {bound : Expression}
    (own : sub.join = none → ∀ reference ∈ references expression,
      reference.table = none ∨ reference.table = sub.source.tableAlias)
    (ran : bind (.join (sourcesOf catalog sub)) allowAggregates (adapt sub expression) = .ok bound) :
    bindWith (bindInnerFirst (sourcesOf catalog sub) outer) allowAggregates expression = .ok bound := by
  have found : Agrees (fun reference => bindColumnRef (.join (sourcesOf catalog sub)) (adaptReference sub reference))
      (bindInnerFirst (sourcesOf catalog sub) outer) (references expression) :=
    fun reference member column resolved =>
      bindInnerFirst_adapted notDerived aliased (fun isJoin => own isJoin reference member) resolved
  refine bindWith_agrees allowAggregates expression found bound ?_
  cases isJoin : sub.join with
  | some clause =>
    have unchanged (reference : Reference) : adaptReference sub reference = reference := by
      rw [adaptReference, isJoin]
      rfl
    simp only [unchanged]
    rwa [adapt, isJoin] at ran
  | none =>
    have unqualified (reference : Reference) : adaptReference sub reference = { reference with table := none } := by
      rw [adaptReference, isJoin]
      rfl
    simp only [unqualified]
    rw [adapt, isJoin] at ran
    -- Names that have lost their qualifiers are found as they stand.
    have stripped : Agrees (bindColumnRef (.join (sourcesOf catalog sub)))
        (fun reference => bindColumnRef (.join (sourcesOf catalog sub)) { reference with table := none })
        (references (stripTableQualifier expression)) := by
      intro reference member column resolved
      rw [stripTableQualifier, references_mapReferences] at member
      obtain ⟨written, -, rfl⟩ := List.mem_map.mp member
      exact resolved
    have strippedRan := bindWith_agrees allowAggregates _ stripped bound ran
    rw [stripTableQualifier] at strippedRan
    rw [← strippedRan]
    refine (bindWith_mapReferences (fun reference => ?_) allowAggregates expression).symm
    rfl

end Written

end Subquery

end KernelLake.DerivedTables
