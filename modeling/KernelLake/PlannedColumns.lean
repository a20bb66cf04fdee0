import KernelLake.ConversionSuccess
import KernelLake.JoinBinding
import KernelLake.ReferenceProofs

/-!
The columns that planned queries ask their scans for.

`Planned` are the plans that bound queries are turned into, over tables, over derived tables and over
join chains of both. Their references are in range because the binder resolved them, with one
exception: a clause may name a column of a source that was joined by a semi or anti join, and the
joined row does not carry it.
-/

namespace KernelLake.PlannedColumns

open KernelLake.Types KernelLake.Expressions KernelLake.LogicalPlans KernelLake.SqlAst
open KernelLake.Binder KernelLake.QueryBinding KernelLake.BindingProofs KernelLake.QueryBindingProofs
open KernelLake.JoinBinding KernelLake.LogicalPlanner KernelLake.Optimizer KernelLake.PhysicalPlanner
open KernelLake.RequiredColumns KernelLake.ReferenceProofs KernelLake.ConversionSuccess
open KernelLake.ExpressionText KernelLake.Library.Results
open KernelLake.AggregatePlanning (hasAggregate branchesHaveAggregate)

/-! ## Planned queries -/

/-- The plans of accepted queries: over a table, over a derived table, and over a join chain. -/
inductive Planned : LogicalPlan → Prop
  | table {stmt : AstSelectStatement} {schema : Schema} {query : BoundQuery}
      (partitionColumns : List PartitionColumn) (bound : bindQuery stmt schema = .ok query) :
      Planned (buildLogicalPlan query schema partitionColumns)
  | derived {stmt : AstSelectStatement} {source : LogicalPlan} {query : BoundQuery} (planned : Planned source)
      (bound : bindQuery stmt source.outputSchema = .ok query) : Planned (buildOverPlan query source)
  | joined {stmt : AstSelectStatement} {inputs : List JoinInput} {query : BoundQuery} {plan : LogicalPlan}
      (planned : ∀ source, JoinInput.derived source ∈ inputs → Planned source)
      (bound : bindJoinQuery stmt (inputs.map JoinInput.schema) = .ok query)
      (built : buildJoinPlan query inputs = .ok plan) : Planned plan

/-- Whether an operator over this plan reads the rows of a join. -/
def overJoin : LogicalPlan → Bool
  | .join .. => true
  | .filter child _ => overJoin child
  | .sort child _ => overJoin child
  | .limit child _ => overJoin child
  | _ => false

def allWithin (width : Nat) (indices : List Nat) : Bool :=
  indices.all (fun index => index < width)

/-- What is referred to over a join is a column of the joined row, and what a residual predicate refers
to is a column of one of the two sides. -/
def carried : LogicalPlan → Bool
  | .scan _ => true
  | .join left right _ _ _ residualPredicate =>
    carried left && carried right &&
      allWithin (left.width + right.width) (collectResidualColumns residualPredicate)
  | .filter child predicate =>
    carried child && (!overJoin child || allWithin child.width (collectColumns predicate))
  | .projection child items =>
    carried child && (!overJoin child || allWithin child.width (collectItemColumns items))
  | .aggregate child groupBy aggregates =>
    carried child && (!overJoin child ||
      allWithin child.width (collectItemColumns groupBy ++ collectItemColumns aggregates))
  | .sort child keys =>
    carried child && (!overJoin child || allWithin child.width (collectKeyColumns keys))
  | .limit child _ => carried child

theorem allWithin_iff {width : Nat} {indices : List Nat} :
    allWithin width indices = true ↔ refersWithin width indices := by
  simp [allWithin, refersWithin]

/-! ## Bound expressions -/

theorem hereditary_within (width : Nat) :
    Hereditary (fun expression => refersWithin width (collectColumns expression))
      (fun branches => refersWithin width (collectBranchColumns branches)) where
  literal _ _ _ := List.forall_mem_nil _
  retyped _ _ _ _ := List.forall_mem_nil _
  binary _ _ _ := fun left right => refersWithin_append.mpr ⟨left, right⟩
  unary _ _ _ := id
  cast _ := id
  extract _ _ _ := id
  substring _ _ _ _ := id
  between := fun value lower upper =>
    refersWithin_append.mpr ⟨refersWithin_append.mpr ⟨value, lower⟩, upper⟩
  like _ _ := id
  caseWhen _ _ := id
  done := List.forall_mem_nil _
  otherwise := id
  when := fun condition result rest =>
    refersWithin_append.mpr ⟨refersWithin_append.mpr ⟨condition, result⟩, rest⟩

theorem callsInherit_within (width : Nat) :
    CallsInherit (fun expression => refersWithin width (collectColumns expression)) where
  aggregate _ _ _ := id
  countStar _ _ := List.forall_mem_nil _

theorem hereditary_plain :
    Hereditary (fun expression => hasAggregate expression = false)
      (fun branches => branchesHaveAggregate branches = false) where
  literal _ _ _ := rfl
  retyped _ _ _ _ := rfl
  binary _ _ _ := fun left right => Bool.or_eq_false_iff.mpr ⟨left, right⟩
  unary _ _ _ := id
  cast _ := id
  extract _ _ _ := id
  substring _ _ _ _ := id
  between := fun value lower upper =>
    Bool.or_eq_false_iff.mpr ⟨Bool.or_eq_false_iff.mpr ⟨value, lower⟩, upper⟩
  like _ _ := id
  caseWhen _ _ := id
  done := rfl
  otherwise := id
  when := fun condition result rest =>
    Bool.or_eq_false_iff.mpr ⟨Bool.or_eq_false_iff.mpr ⟨condition, result⟩, rest⟩

/-- Every name that a scope resolves is a column of a row of the given width. -/
structure ScopeWithin (scope : Scope) (width : Nat) : Prop where
  resolved : ∀ reference column, bindColumnRef scope reference = .ok column →
    refersWithin width (collectColumns column)
  fields : ∀ field index, (field, index) ∈ allFieldsWithIndex scope → index < width

theorem scopeWithin_table (schema : Schema) : ScopeWithin (.table schema) schema.length where
  resolved reference column ran := by
    obtain ⟨name, table⟩ := reference
    cases table with
    | some table => cases ran
    | none =>
      obtain ⟨position, field, _, isField, rfl⟩ := resolveColumn_eq_ok ran
      intro index member
      obtain rfl := List.mem_singleton.mp member
      simpa using (List.getElem?_eq_some_iff.mp isField).1
  fields field index member :=
    (List.getElem?_eq_some_iff.mp (List.mem_zipIdx_iff_getElem?.mp member)).1

theorem sourceFields_within {sources : List JoinSource}
    (kept : ∀ source ∈ sources, keepsRight source.joinType = true) {offset : Nat} {field : Field}
    {index : Nat} (member : (field, index) ∈ sourceFields offset sources) :
    index < offset + (chainSchema sources).length := by
  induction sources generalizing offset with
  | nil => cases member
  | cons source rest hypothesis =>
    obtain ⟨keeps, restKept⟩ := List.forall_mem_cons.mp kept
    have span : source.span = source.schema.length := if_pos keeps
    simp only [chainSchema, List.flatMap_cons, List.length_append, length_deliveredFields] at hypothesis ⊢
    rcases List.mem_append.mp member with inSource | inRest
    · have bounds := List.snd_lt_add_of_mem_zipIdx inSource
      simp only at bounds
      omega
    · have later := hypothesis restKept inRest
      omega

/-- If every join keeps its right columns, the joined row carries all of them. -/
theorem scopeWithin_join {sources : List JoinSource}
    (kept : ∀ source ∈ sources, keepsRight source.joinType = true) :
    ScopeWithin (.join sources) (chainSchema sources).length where
  resolved reference column ran := by
    obtain ⟨number, position, _, source, field, held, isField, rfl⟩ := bindColumnRef_denotes ran
    intro index member
    obtain rfl := List.mem_singleton.mp member
    have delivered := chainSchema_at held (kept source (List.mem_of_getElem? held)) isField
    simpa using (List.getElem?_eq_some_iff.mp delivered).1
  fields field index member := by simpa using sourceFields_within kept member

theorem bind_within {Statement : Type} {scope : Scope} {width : Nat} (scopeWithin : ScopeWithin scope width)
    {allowAggregates : Bool} {expression : AstExpr Statement} {bound : Expression}
    (ran : bind scope allowAggregates expression = .ok bound) : refersWithin width (collectColumns bound) :=
  bindWith_inherits (hereditary_within _) allowAggregates (fun _ => callsInherit_within _) expression
    (fun reference _ column => scopeWithin.resolved reference column) bound ran

/-- Where aggregates are not allowed there are none. -/
theorem bind_plain {Statement : Type} {scope : Scope} {expression : AstExpr Statement} {bound : Expression}
    (ran : bind scope false expression = .ok bound) : hasAggregate bound = false := by
  refine bindWith_inherits hereditary_plain false (fun isTrue => by cases isTrue) expression
    (fun _ _ column resolved => ?_) bound ran
  obtain ⟨name, index, type, rfl⟩ := bindColumnRef_column resolved
  rfl

/-! ## Aggregate slots -/

/-- A property that an expression hands down to its parts. -/
structure HandedDown (holds : Expression → Prop) (branchesHold : CaseBranches → Prop) : Prop where
  binary : ∀ {op left right type}, holds (.binary op left right type) → holds left ∧ holds right
  unary : ∀ {op operand type}, holds (.unary op operand type) → holds operand
  cast : ∀ {operand type}, holds (.cast operand type) → holds operand
  extract : ∀ {part operand type}, holds (.extract part operand type) → holds operand
  substring : ∀ {operand start length type}, holds (.substring operand start length type) → holds operand
  between : ∀ {value lower upper}, holds (.between value lower upper) →
    holds value ∧ holds lower ∧ holds upper
  like : ∀ {value pattern negated}, holds (.like value pattern negated) → holds value
  caseWhen : ∀ {branches type}, holds (.caseWhen branches type) → branchesHold branches
  otherwise : ∀ {result}, branchesHold (.otherwise result) → holds result
  when : ∀ {condition result rest}, branchesHold (.when condition result rest) →
    holds condition ∧ holds result ∧ branchesHold rest

theorem handedDown_within (width : Nat) :
    HandedDown (fun expression => refersWithin width (collectColumns expression))
      (fun branches => refersWithin width (collectBranchColumns branches)) where
  binary := refersWithin_append.mp
  unary := id
  cast := id
  extract := id
  substring := id
  between := by
    intro value lower upper within
    obtain ⟨innerWithin, upperWithin⟩ := refersWithin_append.mp within
    obtain ⟨valueWithin, lowerWithin⟩ := refersWithin_append.mp innerWithin
    exact ⟨valueWithin, lowerWithin, upperWithin⟩
  like := id
  caseWhen := id
  otherwise := id
  when := by
    intro condition result rest within
    obtain ⟨innerWithin, restWithin⟩ := refersWithin_append.mp within
    obtain ⟨conditionWithin, resultWithin⟩ := refersWithin_append.mp innerWithin
    exact ⟨conditionWithin, resultWithin, restWithin⟩

/-- The expressions of all slots have a property. -/
def SlotsHold (holds : Expression → Prop) (slots : AggregateSlots) : Prop :=
  ∀ item ∈ slots.aggregates, holds item.expr

section Slots

variable {holds : Expression → Prop} {branchesHold : CaseBranches → Prop} {groups : GroupPositions}

theorem slotsHold_registerAs {groupCount : Nat} {expression : Expression} {name : String}
    {slots : AggregateSlots} (held : holds expression) (slotsBefore : SlotsHold holds slots) :
    SlotsHold holds (registerAs groupCount expression name slots).2 := by
  unfold registerAs registerAggregate
  cases slots.positions.lookup (structuralKey expression) with
  | some position => exact slotsBefore
  | none =>
    intro item member
    rcases List.mem_append.mp member with before | new
    · exact slotsBefore item before
    · obtain rfl := List.mem_singleton.mp new
      exact held

mutual

/-- Every slot comes from a part of a rewritten expression. -/
theorem slotsHold_rewriteAggregateRefs (handed : HandedDown holds branchesHold) :
    (expression : Expression) → holds expression → (slots : AggregateSlots) →
      SlotsHold holds slots → SlotsHold holds (rewriteAggregateRefs groups expression slots).2
  | .column .., _, slots, slotsBefore => by
    rw [rewriteAggregateRefs]
    split <;> exact slotsBefore
  | .literal .., _, slots, slotsBefore => by
    rw [rewriteAggregateRefs]
    split <;> exact slotsBefore
  | .binary op left right type, held, slots, slotsBefore => by
    obtain ⟨leftHeld, rightHeld⟩ := handed.binary held
    rw [rewriteAggregateRefs]
    split
    · exact slotsBefore
    · exact slotsHold_rewriteAggregateRefs handed right rightHeld _
        (slotsHold_rewriteAggregateRefs handed left leftHeld slots slotsBefore)
  | .unary op operand type, held, slots, slotsBefore => by
    rw [rewriteAggregateRefs]
    split
    · exact slotsBefore
    · exact slotsHold_rewriteAggregateRefs handed operand (handed.unary held) slots slotsBefore
  | .cast operand type, held, slots, slotsBefore => by
    rw [rewriteAggregateRefs]
    split
    · exact slotsBefore
    · exact slotsHold_rewriteAggregateRefs handed operand (handed.cast held) slots slotsBefore
  | .extract part operand type, held, slots, slotsBefore => by
    rw [rewriteAggregateRefs]
    split
    · exact slotsBefore
    · exact slotsHold_rewriteAggregateRefs handed operand (handed.extract held) slots slotsBefore
  | .substring operand start length type, held, slots, slotsBefore => by
    rw [rewriteAggregateRefs]
    split
    · exact slotsBefore
    · exact slotsHold_rewriteAggregateRefs handed operand (handed.substring held) slots slotsBefore
  | .between value lower upper, held, slots, slotsBefore => by
    obtain ⟨valueHeld, lowerHeld, upperHeld⟩ := handed.between held
    rw [rewriteAggregateRefs]
    split
    · exact slotsBefore
    · exact slotsHold_rewriteAggregateRefs handed upper upperHeld _
        (slotsHold_rewriteAggregateRefs handed lower lowerHeld _
          (slotsHold_rewriteAggregateRefs handed value valueHeld slots slotsBefore))
  | .like value pattern negated, held, slots, slotsBefore => by
    rw [rewriteAggregateRefs]
    split
    · exact slotsBefore
    · exact slotsHold_rewriteAggregateRefs handed value (handed.like held) slots slotsBefore
  | .caseWhen branches type, held, slots, slotsBefore => by
    rw [rewriteAggregateRefs]
    split
    · exact slotsBefore
    · exact slotsHold_rewriteBranchRefs handed branches (handed.caseWhen held) slots slotsBefore
  | .aggregate function argument type, held, slots, slotsBefore => by
    rw [rewriteAggregateRefs]
    split
    · exact slotsBefore
    · exact slotsHold_registerAs held slotsBefore
  | .countStar type, held, slots, slotsBefore => by
    rw [rewriteAggregateRefs]
    split
    · exact slotsBefore
    · exact slotsHold_registerAs held slotsBefore

theorem slotsHold_rewriteBranchRefs (handed : HandedDown holds branchesHold) :
    (branches : CaseBranches) → branchesHold branches → (slots : AggregateSlots) →
      SlotsHold holds slots → SlotsHold holds (rewriteBranchRefs groups branches slots).2
  | .done, _, slots, slotsBefore => slotsBefore
  | .otherwise result, held, slots, slotsBefore =>
    slotsHold_rewriteAggregateRefs handed result (handed.otherwise held) slots slotsBefore
  | .when condition result rest, held, slots, slotsBefore => by
    obtain ⟨conditionHeld, resultHeld, restHeld⟩ := handed.when held
    rw [rewriteBranchRefs]
    exact slotsHold_rewriteBranchRefs handed rest restHeld _
      (slotsHold_rewriteAggregateRefs handed result resultHeld _
        (slotsHold_rewriteAggregateRefs handed condition conditionHeld slots slotsBefore))

end

theorem slotsHold_rewriteSelectList (handed : HandedDown holds branchesHold) {items : List NamedExpression}
    (held : ∀ item ∈ items, holds item.expr) {slots : AggregateSlots} (slotsBefore : SlotsHold holds slots) :
    SlotsHold holds (rewriteSelectList groups items slots).2 := by
  induction items generalizing slots with
  | nil => exact slotsBefore
  | cons item rest hypothesis =>
    obtain ⟨itemHeld, restHeld⟩ := List.forall_mem_cons.mp held
    rw [rewriteSelectList]
    refine hypothesis restHeld ?_
    unfold rewriteSelectItem
    split
    · exact @slotsHold_registerAs _ groups.groupBy.length _ _ _ itemHeld slotsBefore
    · exact slotsHold_rewriteAggregateRefs handed item.expr itemHeld slots slotsBefore

end Slots

/-- The slots of a query's aggregates. -/
def plannedSlots (query : BoundQuery) : AggregateSlots :=
  let groups := groupPositions query.groupBy
  (rewriteHaving groups query.having (rewriteSelectList groups query.selectList .empty).2).2

theorem slotsHold_plannedSlots {holds : Expression → Prop} {branchesHold : CaseBranches → Prop}
    (handed : HandedDown holds branchesHold) {query : BoundQuery}
    (selectList : ∀ item ∈ query.selectList, holds item.expr)
    (having : ∀ predicate, query.having = some predicate → holds predicate) :
    SlotsHold holds (plannedSlots query) := by
  have selected : SlotsHold holds
      (rewriteSelectList (groupPositions query.groupBy) query.selectList .empty).2 := by
    apply slotsHold_rewriteSelectList handed selectList
    exact List.forall_mem_nil _
  unfold plannedSlots
  cases isHaving : query.having with
  | none => exact selected
  | some predicate =>
    exact slotsHold_rewriteAggregateRefs handed predicate (having predicate isHaving) _ selected

/-- The expressions of all slots refer to columns of a row of the given width. -/
def SlotsWithin (width : Nat) (slots : AggregateSlots) : Prop :=
  ∀ item ∈ slots.aggregates, refersWithin width (collectColumns item.expr)

theorem slotsWithin_plannedSlots {width : Nat} {query : BoundQuery}
    (selectList : ∀ item ∈ query.selectList, refersWithin width (collectColumns item.expr))
    (having : ∀ predicate, query.having = some predicate → refersWithin width (collectColumns predicate)) :
    SlotsWithin width (plannedSlots query) :=
  slotsHold_plannedSlots (handedDown_within width) selectList having

/-! ## Clauses -/

/-- What the clauses of a query read of its source's rows. -/
structure ReadsSource (width : Nat) (query : BoundQuery) : Prop where
  condition : ∀ predicate, query.condition = some predicate → plainWithin width predicate
  aggregated : query.isAggregateQuery = true → refersWithin width
    (collectItemColumns (groupPositions query.groupBy).groupBy ++
      collectItemColumns (plannedSlots query).aggregates)
  sorted : query.isAggregateQuery = false → refersWithin width (collectKeyColumns query.orderBy)
  selected : query.isAggregateQuery = false → refersWithin width (collectItemColumns query.selectList)

theorem width_filterIf (predicate : Option Expression) (plan : LogicalPlan) :
    (filterIf predicate plan).width = plan.width := by
  cases predicate <;> rfl

theorem width_sortIf (keys : List SortKey) (plan : LogicalPlan) : (sortIf keys plan).width = plan.width := by
  unfold sortIf
  split <;> rfl

theorem inRange_filterIf {predicate : Option Expression} {plan : LogicalPlan} (bound : inRange plan)
    (within : ∀ condition, predicate = some condition → plainWithin plan.width condition) :
    inRange (filterIf predicate plan) := by
  cases predicate with
  | none => exact bound
  | some condition => exact inRange_filter bound (within condition rfl)

theorem inRange_sortIf {keys : List SortKey} {plan : LogicalPlan} (bound : inRange plan)
    (within : referencesScanSchema plan = true → refersWithin plan.width (collectKeyColumns keys)) :
    inRange (sortIf keys plan) := by
  unfold sortIf
  split
  · exact bound
  · exact ⟨bound, within⟩

theorem inRange_limitIf {limit : Option Int} {plan : LogicalPlan} (bound : inRange plan) :
    inRange (limitIf limit plan) := by
  cases limit <;> exact bound

/-- Above an aggregation nothing is renumbered. -/
theorem inRange_overAggregate {plan : LogicalPlan} {groupBy aggregates : List NamedExpression}
    (bound : inRange (.aggregate plan groupBy aggregates)) (having : Option Expression)
    (items : List NamedExpression) :
    inRange (.projection (filterIf having (.aggregate plan groupBy aggregates)) items) := by
  cases having with
  | none => exact ⟨bound, fun references => by cases references⟩
  | some predicate =>
    exact ⟨⟨bound, fun references => by cases references⟩, fun references => by cases references⟩

theorem inRange_aggregatePlan {plan : LogicalPlan} {query : BoundQuery} (bound : inRange plan)
    (within : refersWithin plan.width (collectItemColumns (groupPositions query.groupBy).groupBy ++
      collectItemColumns (plannedSlots query).aggregates)) : inRange (aggregatePlan plan query) :=
  inRange_overAggregate ⟨bound, fun _ => within⟩ _ _

theorem inRange_finishLogicalPlan {source : LogicalPlan} {query : BoundQuery} (bound : inRange source)
    (reads : ReadsSource source.width query) : inRange (finishLogicalPlan source query) := by
  have filtered := inRange_filterIf bound reads.condition
  unfold finishLogicalPlan
  refine inRange_limitIf ?_
  cases isAggregate : query.isAggregateQuery with
  | true =>
    rw [if_pos rfl]
    refine inRange_sortIf (inRange_aggregatePlan filtered ?_) (fun references => by cases references)
    rw [width_filterIf]
    exact reads.aggregated isAggregate
  | false =>
    rw [if_neg Bool.false_ne_true]
    refine ⟨inRange_sortIf filtered (fun _ => ?_), fun _ => ?_⟩
    · rw [width_filterIf]
      exact reads.sorted isAggregate
    · rw [width_sortIf, width_filterIf]
      exact reads.selected isAggregate

theorem collectItemColumns_groupPositions (groupBy : List Expression) :
    collectItemColumns (groupPositions groupBy).groupBy = groupBy.flatMap collectColumns := by
  simp [collectItemColumns, groupPositions, List.flatMap_map]

/-- Every clause of a query is plain where aggregates are not allowed. -/
theorem plain_condition {stmt : AstSelectStatement} {scope : Scope} {isAggregateQuery : Bool}
    {query : BoundQuery} {groupReferences : List Reference} {keys : List GroupKey}
    (clauses : ClausesBound stmt scope isAggregateQuery query groupReferences keys) :
    ∀ predicate, query.condition = some predicate → hasAggregate predicate = false := by
  intro predicate isPredicate
  rcases optionMapM_eq_ok.mp clauses.condition with ⟨_, absent⟩ | ⟨_, bound, _, isBound, ran⟩
  · rw [absent] at isPredicate
    cases isPredicate
  · rw [isBound] at isPredicate
    rw [← Option.some.inj isPredicate]
    exact bind_plain (bindCondition_eq_ok ran).2.1

section Clauses

variable {stmt : AstSelectStatement} {scope : Scope} {width : Nat} {isAggregateQuery : Bool}
  {query : BoundQuery} {groupReferences : List Reference} {keys : List GroupKey}

theorem selectList_within (scopeWithin : ScopeWithin scope width)
    (clauses : ClausesBound stmt scope isAggregateQuery query groupReferences keys) :
    ∀ item ∈ query.selectList, refersWithin width (collectColumns item.expr) := by
  intro item member
  rcases bindSelectList_eq_ok clauses.selectList with ⟨_, _, _, isStarred⟩ | bound
  · rw [isStarred] at member
    obtain ⟨⟨field, index⟩, inScope, rfl⟩ := List.mem_map.mp member
    intro other isIndex
    rw [List.mem_singleton.mp isIndex]
    exact scopeWithin.fields field index inScope
  · obtain ⟨written, _, itemBound⟩ := exists_of_mem_right bound member
    exact bind_within scopeWithin itemBound.expr

/-- The clauses of a query read columns of its source, if its names resolve to such. -/
theorem readsSource_of_clauses (scopeWithin : ScopeWithin scope width)
    (clauses : ClausesBound stmt scope isAggregateQuery query groupReferences keys) :
    ReadsSource width query := by
  have items := selectList_within scopeWithin clauses
  have selected : refersWithin width (collectItemColumns query.selectList) := by
    intro index member
    obtain ⟨item, inItems, inExpr⟩ := List.mem_flatMap.mp member
    exact items item inItems index inExpr
  refine ⟨fun predicate isPredicate => ⟨plain_condition clauses predicate isPredicate, ?_⟩, fun _ => ?_,
    fun plain => ?_, fun _ => selected⟩
  · rcases optionMapM_eq_ok.mp clauses.condition with ⟨_, absent⟩ | ⟨_, bound, _, isBound, ran⟩
    · rw [absent] at isPredicate
      cases isPredicate
    · rw [isBound] at isPredicate
      rw [← Option.some.inj isPredicate]
      exact bind_within scopeWithin (bindCondition_eq_ok ran).2.1
  · refine refersWithin_append.mpr ⟨?_, fun index member => ?_⟩
    · rw [collectItemColumns_groupPositions, clauses.groupBy]
      intro index member
      obtain ⟨_, inKeys, inExpr⟩ := List.mem_flatMap.mp member
      obtain ⟨key, isKey, rfl⟩ := List.mem_map.mp inKeys
      obtain ⟨reference, _, keyRan⟩ := exists_of_mem_mapM clauses.keysBound isKey
      rcases bindGroupKey_eq_ok keyRan with ⟨columnRan, _⟩ | ⟨position, item, held, rfl, _, _⟩
      · exact scopeWithin.resolved reference _ columnRan index inExpr
      · exact items item (List.mem_of_getElem? held) index inExpr
    · have having (predicate : Expression) (isHaving : query.having = some predicate) :
          refersWithin width (collectColumns predicate) := by
        rcases optionMapM_eq_ok.mp clauses.having with ⟨_, absent⟩ | ⟨_, bound, _, isBound, ran⟩
        · rw [absent] at isHaving
          cases isHaving
        · rw [isBound] at isHaving
          rw [← Option.some.inj isHaving]
          exact bind_within scopeWithin (bindHaving_eq_ok ran).1
      obtain ⟨item, inSlots, inExpr⟩ := List.mem_flatMap.mp member
      exact slotsWithin_plannedSlots items having item inSlots index inExpr
  · intro index member
    obtain ⟨key, isKey, inExpr⟩ := List.mem_flatMap.mp member
    obtain ⟨item, _, keyRan⟩ := exists_of_mem_mapM clauses.orderBy isKey
    rw [← clauses.isAggregate, plain, bindOrderByItem, if_neg Bool.false_ne_true] at keyRan
    simp only [bind_eq_ok, pure_eq_ok] at keyRan
    obtain ⟨bound, boundRan, rfl⟩ := keyRan
    exact bind_within scopeWithin boundRan index inExpr

end Clauses

/-! ## Join chains -/

theorem findKey_candidate {candidate : Expression → Option (Nat × Nat)} {position : Nat}
    {found result : Option (Nat × Nat × Nat)} {conjuncts : List Expression}
    (ran : findKey candidate position found conjuncts = .ok result) :
    result = found ∨ ∃ place key, result = some (place, key) ∧ ∃ conjunct ∈ conjuncts,
      candidate conjunct = some key := by
  induction conjuncts generalizing position found with
  | nil => exact .inl (pure_eq_ok.mp ran).symm
  | cons conjunct rest hypothesis =>
    unfold findKey at ran
    cases isKey : candidate conjunct with
    | none =>
      rw [isKey] at ran
      rcases hypothesis ran with same | ⟨place, key, isResult, other, member, isOther⟩
      · exact .inl same
      · exact .inr ⟨place, key, isResult, other, List.mem_cons_of_mem _ member, isOther⟩
    | some key =>
      simp only [isKey] at ran
      split at ran
      · cases ran
      · rcases hypothesis ran with same | ⟨place, other, isResult, later, member, isOther⟩
        · exact .inr ⟨position, key, same, conjunct, List.mem_cons_self .., isKey⟩
        · exact .inr ⟨place, other, isResult, later, List.mem_cons_of_mem _ member, isOther⟩

theorem keyCandidate_within {count limit : Nat} {conjunct : Expression} {key : Nat × Nat}
    (isKey : keyCandidate count limit conjunct = some key) : key.1 < count ∧ key.2 < limit - count := by
  unfold keyCandidate at isKey
  split at isKey
  · split at isKey
    · obtain rfl := Option.some.inj isKey
      rename_i bounds
      exact ⟨bounds.1, by simp only; omega⟩
    · split at isKey
      · obtain rfl := Option.some.inj isKey
        rename_i bounds
        exact ⟨bounds.1, by simp only; omega⟩
      · cases isKey
  · cases isKey

/-- Only plain conditions on the new source, numbered from its own start, become its prefilter. -/
theorem splitConjuncts_prefilter {rightOnly : Expression → Bool} {rebase : Expression → Expression}
    {width : Nat} {allowResidual : Bool} {conjuncts : List Expression}
    (moved : ∀ conjunct ∈ conjuncts, rightOnly conjunct = true → plainWithin width (rebase conjunct))
    {prefilter residual : Option Expression} {result : Option Expression × Option Expression}
    (ran : splitConjuncts rightOnly rebase allowResidual prefilter residual conjuncts = .ok result)
    (before : ∀ predicate, prefilter = some predicate → plainWithin width predicate) :
    ∀ predicate, result.1 = some predicate → plainWithin width predicate := by
  induction conjuncts generalizing prefilter residual with
  | nil =>
    rw [← pure_eq_ok.mp ran]
    exact before
  | cons conjunct rest hypothesis =>
    obtain ⟨movedFirst, movedRest⟩ := List.forall_mem_cons.mp moved
    unfold splitConjuncts at ran
    split at ran
    · rename_i isRight
      refine hypothesis movedRest ran (fun predicate isPredicate => ?_)
      obtain rfl := Option.some.inj isPredicate
      cases prefilter with
      | none => exact movedFirst isRight
      | some previous => exact plainWithin_and.mpr ⟨before previous rfl, movedFirst isRight⟩
    · split at ran
      · cases ran
      · exact hypothesis movedRest ran before

theorem plain_conjuncts {predicate : Expression} (plain : hasAggregate predicate = false) :
    ∀ conjunct ∈ collectConjuncts predicate, hasAggregate conjunct = false := by
  fun_induction collectConjuncts predicate with
  | case1 left right type leftHypothesis rightHypothesis =>
    obtain ⟨leftPlain, rightPlain⟩ := Bool.or_eq_false_iff.mp plain
    exact List.forall_mem_append.mpr ⟨leftHypothesis leftPlain, rightHypothesis rightPlain⟩
  | case2 predicate => exact List.forall_mem_singleton.mpr plain

theorem extractJoinStepKeys_within {condition : Expression} {count sourceCount : Nat} {joinType : JoinType}
    {keys : JoinStepKeys} (plain : hasAggregate condition = false)
    (ran : extractJoinStepKeys condition count sourceCount joinType = .ok keys) :
    keys.combinedKeyIndex < count ∧ keys.sourceKeyIndex < sourceCount ∧
      ∀ predicate, keys.rightPrefilter = some predicate → plainWithin sourceCount predicate := by
  unfold extractJoinStepKeys at ran
  obtain ⟨found, foundRan, ran⟩ := bind_eq_ok.mp ran
  split at ran
  · cases ran
  · rename_i position combinedKeyIndex sourceKeyIndex
    simp only [bind_eq_ok, pure_eq_ok] at ran
    obtain ⟨⟨rightPrefilter, residualPredicate⟩, splitRan, rfl⟩ := ran
    have within : combinedKeyIndex < count ∧ sourceKeyIndex < sourceCount := by
      rcases findKey_candidate foundRan with absent | ⟨place, key, isKey, conjunct, _, isCandidate⟩
      · cases absent
      · obtain ⟨-, rfl⟩ := Prod.mk.inj (Option.some.inj isKey)
        simpa using keyCandidate_within isCandidate
    refine ⟨within.1, within.2, splitConjuncts_prefilter (fun conjunct member isRight => ?_) splitRan
      (fun _ none => by cases none)⟩
    simp only [List.all_eq_true, Bool.and_eq_true, decide_eq_true_eq] at isRight
    have inConjuncts := List.mem_of_mem_eraseIdx member
    exact plainWithin_shiftColumns ⟨plain_conjuncts plain conjunct inConjuncts,
      fun index inColumns => (isRight index inColumns).2⟩ (fun index inColumns => (isRight index inColumns).1)

theorem keepsRight_width (left right : LogicalPlan) (leftKeyIndex rightKeyIndex : Nat) (joinType : JoinType)
    (residualPredicate : Option Expression) :
    (LogicalPlan.join left right leftKeyIndex rightKeyIndex joinType residualPredicate).width =
      if keepsRight joinType then left.width + right.width else left.width := by
  simp only [LogicalPlan.width, LogicalPlan.outputSchema, joinSchema_length]
  cases joinType <;> rfl

theorem carried_joinChain {plan : LogicalPlan} {steps : List (BoundJoinStep × JoinInput)}
    (isCarried : carried (joinChain plan steps) = true) : carried plan = true := by
  induction steps generalizing plan with
  | nil => exact isCarried
  | cons step rest hypothesis =>
    have inner := hypothesis isCarried
    simp only [joinStep, carried, Bool.and_eq_true] at inner
    exact inner.1.1

/-- The keys and the prefilters of a chain that was bound are in range. -/
theorem inRange_joinChain {scope : Scope} {plan : LogicalPlan} (planBound : inRange plan)
    {steps : List (AstJoinStep AstSelectStatement)} {inputs : List JoinInput} {bound : List BoundJoinStep}
    (ran : bindJoinSteps scope plan.width (steps.zip (inputs.map JoinInput.schema)) = .ok bound)
    (sources : ∀ source, JoinInput.derived source ∈ inputs → carried source = true → inRange source)
    (isCarried : carried (joinChain plan (bound.zip inputs)) = true) :
    inRange (joinChain plan (bound.zip inputs)) := by
  induction steps generalizing plan inputs bound with
  | nil =>
    obtain rfl := pure_eq_ok.mp ran
    exact planBound
  | cons step steps hypothesis =>
    cases inputs with
    | nil =>
      obtain rfl := pure_eq_ok.mp ran
      exact planBound
    | cons input inputs =>
      simp only [List.map_cons, List.zip_cons_cons, bindJoinSteps, bind_eq_ok, pure_eq_ok] at ran
      obtain ⟨condition, conditionRan, keys, keysRan, others, othersRan, rfl⟩ := ran
      obtain ⟨combinedWithin, sourceWithin, prefilterWithin⟩ :=
        extractJoinStepKeys_within (bind_plain conditionRan) keysRan
      rw [List.zip_cons_cons, joinChain] at isCarried ⊢
      have stepCarried := carried_joinChain isCarried
      simp only [joinStep, carried, Bool.and_eq_true, allWithin_iff] at stepCarried
      obtain ⟨⟨_, rightCarried⟩, residualWithin⟩ := stepCarried
      have sourceWidth : (input.plan step.source.paths).width = input.schema.length :=
        congrArg List.length (outputSchema_plan step.source.paths input)
      have rightWidth : (filterIf keys.rightPrefilter (input.plan step.source.paths)).width =
          input.schema.length := (width_filterIf ..).trans sourceWidth
      have sourceBound : inRange (input.plan step.source.paths) := by
        cases input with
        | table schema partitionColumns => trivial
        | derived source =>
          refine sources source (List.mem_cons_self ..) ?_
          cases isFilter : keys.rightPrefilter with
          | none =>
            rw [isFilter] at rightCarried
            exact rightCarried
          | some predicate =>
            rw [isFilter] at rightCarried
            exact (Bool.and_eq_true_iff.mp rightCarried).1
      refine hypothesis ?_ ?_ (fun source member => sources source (List.mem_cons_of_mem _ member)) isCarried
      · refine ⟨planBound, inRange_filterIf sourceBound (fun predicate isPredicate => ?_), combinedWithin, ?_,
          residualWithin⟩
        · rw [sourceWidth]
          exact prefilterWithin predicate isPredicate
        · rw [rightWidth]
          exact sourceWithin
      · rw [joinStep, keepsRight_width, rightWidth]
        exact othersRan

/-! ## Planned plans -/

section Carried

variable {source : LogicalPlan} {query : BoundQuery}

theorem overJoin_filterIf (predicate : Option Expression) (plan : LogicalPlan) :
    overJoin (filterIf predicate plan) = overJoin plan := by
  cases predicate <;> rfl

theorem overJoin_sortIf (keys : List SortKey) (plan : LogicalPlan) :
    overJoin (sortIf keys plan) = overJoin plan := by
  unfold sortIf
  split <;> rfl

theorem carried_limitIf {limit : Option Int} {plan : LogicalPlan}
    (isCarried : carried (limitIf limit plan) = true) : carried plan = true := by
  cases limit <;> exact isCarried

theorem carried_filterIf {predicate : Option Expression} {plan : LogicalPlan}
    (isCarried : carried (filterIf predicate plan) = true) :
    carried plan = true ∧ (overJoin plan = true → ∀ condition, predicate = some condition →
      refersWithin plan.width (collectColumns condition)) := by
  cases predicate with
  | none => exact ⟨isCarried, fun _ _ absent => by cases absent⟩
  | some predicate =>
    simp only [filterIf, Option.elim_some, carried, Bool.and_eq_true, Bool.or_eq_true, Bool.not_eq_true',
      allWithin_iff] at isCarried
    refine ⟨isCarried.1, fun isJoined condition isCondition => ?_⟩
    rw [← Option.some.inj isCondition]
    exact isCarried.2.resolve_left (by simp [isJoined])

theorem carried_sortIf {keys : List SortKey} {plan : LogicalPlan}
    (isCarried : carried (sortIf keys plan) = true) :
    carried plan = true ∧ (overJoin plan = true → refersWithin plan.width (collectKeyColumns keys)) := by
  unfold sortIf at isCarried
  split at isCarried
  · rename_i none
    refine ⟨isCarried, fun _ => ?_⟩
    rw [List.isEmpty_iff.mp none]
    exact List.forall_mem_nil _
  · simp only [carried, Bool.and_eq_true, Bool.or_eq_true, Bool.not_eq_true', allWithin_iff] at isCarried
    exact ⟨isCarried.1, fun isJoined => isCarried.2.resolve_left (by simp [isJoined])⟩

theorem carried_aggregatePlan {plan : LogicalPlan} (isCarried : carried (aggregatePlan plan query) = true) :
    carried plan = true ∧ (overJoin plan = true → refersWithin plan.width
      (collectItemColumns (groupPositions query.groupBy).groupBy ++
        collectItemColumns (plannedSlots query).aggregates)) := by
  have inner : carried (.aggregate plan (groupPositions query.groupBy).groupBy
      (plannedSlots query).aggregates) = true :=
    (carried_filterIf (Bool.and_eq_true_iff.mp isCarried).1).1
  simp only [carried, Bool.and_eq_true, Bool.or_eq_true, Bool.not_eq_true', allWithin_iff] at inner
  exact ⟨inner.1, fun isJoined => inner.2.resolve_left (by simp [isJoined])⟩

/-- A finished plan is carried only if its source is, and over a join only if its clauses are. -/
theorem carried_finishLogicalPlan
    (plain : ∀ predicate, query.condition = some predicate → hasAggregate predicate = false)
    (isCarried : carried (finishLogicalPlan source query) = true) :
    carried source = true ∧ (overJoin source = true → ReadsSource source.width query) := by
  unfold finishLogicalPlan at isCarried
  have finished := carried_limitIf isCarried
  cases isAggregate : query.isAggregateQuery with
  | true =>
    rw [isAggregate, if_pos rfl] at finished
    obtain ⟨grouped, within⟩ := carried_aggregatePlan (carried_sortIf finished).1
    obtain ⟨sourceCarried, conditionWithin⟩ := carried_filterIf grouped
    rw [overJoin_filterIf, width_filterIf] at within
    refine ⟨sourceCarried, fun isJoined => ⟨fun predicate isPredicate => ⟨plain predicate isPredicate, ?_⟩,
      fun _ => within isJoined, fun notAggregate => ?_, fun notAggregate => ?_⟩⟩
    · exact conditionWithin isJoined predicate isPredicate
    all_goals
      rw [isAggregate] at notAggregate
      cases notAggregate
  | false =>
    rw [isAggregate, if_neg Bool.false_ne_true] at finished
    simp only [carried, Bool.and_eq_true, Bool.or_eq_true, Bool.not_eq_true', allWithin_iff] at finished
    obtain ⟨filtered, sortedWithin⟩ := carried_sortIf finished.1
    obtain ⟨sourceCarried, conditionWithin⟩ := carried_filterIf filtered
    rw [overJoin_filterIf, width_filterIf] at sortedWithin
    refine ⟨sourceCarried, fun isJoined => ⟨fun predicate isPredicate => ⟨plain predicate isPredicate, ?_⟩,
      fun isTrue => ?_, fun _ => sortedWithin isJoined, fun _ => ?_⟩⟩
    · exact conditionWithin isJoined predicate isPredicate
    · rw [isAggregate] at isTrue
      cases isTrue
    · have selected := finished.2.resolve_left (by rw [overJoin_sortIf, overJoin_filterIf]; simp [isJoined])
      rwa [width_sortIf, width_filterIf] at selected

end Carried

theorem overJoin_joinChain {plan : LogicalPlan} (steps : List (BoundJoinStep × JoinInput))
    (isJoined : overJoin plan = true ∨ steps ≠ []) : overJoin (joinChain plan steps) = true := by
  induction steps generalizing plan with
  | nil => simpa [joinChain] using isJoined
  | cons step rest hypothesis => exact hypothesis (.inl rfl)

/-- The references of a planned query are in range, unless a join does not carry them. -/
theorem inRange_planned {plan : LogicalPlan} (planned : Planned plan) (isCarried : carried plan = true) :
    inRange plan := by
  induction planned with
  | @table stmt schema query partitionColumns bound =>
    obtain ⟨_, _, _, clauses⟩ := bindQuery_eq_ok bound
    exact inRange_finishLogicalPlan trivial (readsSource_of_clauses (scopeWithin_table schema) clauses)
  | @derived stmt source query planned bound hypothesis =>
    obtain ⟨_, _, _, clauses⟩ := bindQuery_eq_ok bound
    exact inRange_finishLogicalPlan
      (hypothesis (carried_finishLogicalPlan (plain_condition clauses) isCarried).1)
      (readsSource_of_clauses (scopeWithin_table source.outputSchema) clauses)
  | @joined stmt inputs query plan planned bound built hypothesis =>
    obtain ⟨clause, firstSchema, restSchemas, steps, _, isCons, joinBound⟩ := bindJoinQuery_eq_ok bound
    obtain ⟨first, rest, rfl, rfl, rfl⟩ := List.map_eq_cons_iff.mp isCons
    obtain ⟨_, _, clauses⟩ := joinBound.clausesBound
    simp only [buildJoinPlan, joinBound.join] at built
    split at built
    · cases built
    rename_i sameLength
    obtain rfl := Except.ok.inj built
    obtain ⟨sourceCarried, reads⟩ := carried_finishLogicalPlan (plain_condition clauses) isCarried
    have chainBound : inRange (buildJoinSource ⟨clause.first.paths, steps⟩ first rest) :=
      inRange_joinChain
        (show inRange (.scan (.make clause.first.paths first.schema first.partitionColumns)) from trivial)
        joinBound.stepsBound (fun source member => hypothesis source (List.mem_cons_of_mem _ member))
        sourceCarried
    refine inRange_finishLogicalPlan chainBound ?_
    cases rest with
    | nil =>
      -- A chain of one source is a scan, and the one source keeps its columns.
      obtain rfl := List.length_eq_zero_iff.mp (show steps.length = 0 by simpa [eq_comm] using sameLength)
      have kept : ∀ source ∈ joinSources clause [first.schema], keepsRight source.joinType = true := by
        simp [joinSources, keepsRight]
      have schema : (buildJoinSource ⟨clause.first.paths, []⟩ first []).outputSchema =
          chainSchema (joinSources clause [first.schema]) :=
        outputSchema_buildJoinSource (by simpa using joinBound.sameLength) joinBound.stepsBound
      rw [LogicalPlan.width, schema]
      exact readsSource_of_clauses (scopeWithin_join kept) clauses
    | cons second rest =>
      cases steps with
      | nil => simp at sameLength
      | cons step others => exact reads (overJoin_joinChain _ (.inr (List.cons_ne_nil _ _)))

/-- The annotation of a planned query stays in range and leaves every scan the columns that are read of
it exactly if the numbers it carries past projections and aggregations fit the scans they reach.
Conversion then finds every column, unless a projection that was left out shifts the columns of a join. -/
theorem optimize_supplies_iff {plan : LogicalPlan} (planned : Planned plan)
    (isCarried : carried plan = true) :
    (∃ annotated, optimize plan = some annotated ∧ Supplied [] annotated ∧
        (aligned (rewritePlan plan) = true → ∀ files, ∃ physical, convert files annotated = .ok physical)) ↔
      staleFits [] [] (rewritePlan plan) = true := by
  have bound := inRange_rewritePlan (inRange_planned planned isCarried)
  have fits : (optimize plan).isSome = true ↔ staleFits [] [] (rewritePlan plan) = true :=
    annotateScan_isSome bound (fun index => by simp) (fun _ => List.forall_mem_nil _)
  rw [← fits, Option.isSome_iff_exists]
  constructor
  · rintro ⟨annotated, ran, _⟩
    exact ⟨annotated, ran⟩
  · rintro ⟨annotated, ran⟩
    refine ⟨annotated, ran, supplied_annotateScan ran (List.nil_subset _), fun isAligned files => ?_⟩
    obtain ⟨physical, converted, _⟩ := @convert_annotated files _ _ _ _ ran bound isAligned
    exact ⟨physical, converted⟩

/-- `SELECT a, COUNT(*) AS n FROM read_parquet('t.parquet') GROUP BY a HAVING COUNT(*) > 1 ORDER BY n` -/
def countedByKey : AstSelectStatement where
  selectList := [⟨.columnRef "a" none, none⟩, ⟨.countStar, some "n"⟩]
  source := ⟨["t.parquet"], none⟩
  groupBy := [.columnRef "a" none]
  having := some (.binary .greater .countStar (.literal (.integer 1)))
  orderBy := [⟨.columnRef "n" none, true⟩]

def keySchema : Schema := [⟨"a", int64Type false⟩]

def keyValueSchema : Schema := [⟨"a", int64Type false⟩, ⟨"b", int64Type false⟩]

/-- Of a table with two columns the scan is asked for both, though the query reads only one. -/
theorem optimize_supplies_iff_counted :
    ∃ query, bindQuery countedByKey keyValueSchema = .ok query ∧
      ∃ annotated, optimize (buildLogicalPlan query keyValueSchema []) = some annotated ∧
        Supplied [] annotated ∧
        (aligned (rewritePlan (buildLogicalPlan query keyValueSchema [])) = true →
          ∀ files, ∃ physical, convert files annotated = .ok physical) := by
  refine ⟨_, rfl, (optimize_supplies_iff (@Planned.table countedByKey keyValueSchema _ [] rfl) ?_).mpr ?_⟩
  · decide +kernel
  · decide +kernel

/-- Of a table with only that column the second one is asked for as well. -/
theorem counted_out_of_range :
    ¬ ∀ plan, Planned plan → ∃ annotated, optimize plan = some annotated ∧ Supplied [] annotated ∧
      ∀ files, ∃ physical, convert files annotated = .ok physical := by
  intro supplied
  obtain ⟨annotated, ran, _⟩ := supplied _ (@Planned.table countedByKey keySchema _ [] rfl)
  have succeeds := Option.isSome_of_eq_some ran
  revert succeeds
  decide +kernel

end KernelLake.PlannedColumns
