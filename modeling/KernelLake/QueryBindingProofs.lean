import KernelLake.BindingProofs
import KernelLake.QueryBinding

/-!
What a bound query is made of.

`ClausesBound` lists, clause by clause, how a query that was accepted has been bound. The select list
is either the expansion of one `*` or consists of one item for each written one.
-/

namespace KernelLake.QueryBindingProofs

open KernelLake.Types KernelLake.Expressions KernelLake.ExpressionText KernelLake.LogicalPlans
open KernelLake.SqlAst KernelLake.Binder KernelLake.QueryBinding KernelLake.BindingProofs
open KernelLake.Library.Results

/-! ## Clauses -/

/-- How the clauses of a query that was accepted have been bound. -/
structure ClausesBound (stmt : AstSelectStatement) (scope : Scope) (isAggregateQuery : Bool)
    (query : BoundQuery) (groupReferences : List Reference) (keys : List GroupKey) : Prop where
  keysWritten : stmt.groupBy.mapM groupByReference = .ok groupReferences
  selectList : bindSelectList scope stmt.selectList = .ok query.selectList
  outputSchema : query.outputSchema = namedFields query.selectList
  condition : stmt.condition.mapM (bindCondition scope) = .ok query.condition
  keysBound : groupReferences.mapM (bindGroupKey scope query.selectList) = .ok keys
  groupBy : query.groupBy = keys.map GroupKey.expr
  grouped : isAggregateQuery = true → ∀ item ∈ checkedItems stmt.selectList query.selectList keys,
    referencesUngroupedColumn (keys.map (fun key => structuralKey key.expr)) false item.expr = false
  having : stmt.having.mapM (bindHaving scope isAggregateQuery
    (keys.map (fun key => structuralKey key.expr))) = .ok query.having
  orderBy : stmt.orderBy.mapM (bindOrderByItem scope isAggregateQuery query.outputSchema) =
    .ok query.orderBy
  limit : query.limit = stmt.limit
  isAggregate : query.isAggregateQuery = isAggregateQuery

theorem bindQueryCommon_eq_ok {stmt : AstSelectStatement} {scope : Scope} {isAggregateQuery : Bool}
    {query : BoundQuery} (ran : bindQueryCommon stmt scope isAggregateQuery = .ok query) :
    ∃ groupReferences keys, ClausesBound stmt scope isAggregateQuery query groupReferences keys := by
  unfold bindQueryCommon at ran
  simp only [bind_eq_ok] at ran
  obtain ⟨groupReferences, referencesRan, selectList, selectRan, condition, conditionRan, keys, keysRan,
    ran⟩ := ran
  split at ran
  · cases ran
  · rename_i checked
    simp only [bind_eq_ok, pure_eq_ok] at ran
    obtain ⟨having, havingRan, orderBy, orderByRan, rfl⟩ := ran
    refine ⟨groupReferences, keys, referencesRan, selectRan, rfl, conditionRan, keysRan, rfl, ?_, havingRan,
      orderByRan, rfl, rfl⟩
    intro isAggregate item member
    simp only [isAggregate, Bool.true_and, List.any_eq_true, not_exists, not_and, Bool.not_eq_true] at checked
    exact checked item member

/-! ## Select lists -/

theorem foldlM_addSelectItem {items selected result : List NamedExpression}
    (ran : items.foldlM addSelectItem selected = .ok result) : result = selected ++ items := by
  induction items generalizing selected with
  | nil =>
    rw [← pure_eq_ok.mp ran, List.append_nil]
  | cons item items hypothesis =>
    rw [List.foldlM_cons] at ran
    obtain ⟨extended, added, restRan⟩ := bind_eq_ok.mp ran
    unfold addSelectItem at added
    split at added
    · cases added
    · rw [hypothesis restRan, ← Except.ok.inj added, List.append_assoc, List.singleton_append]

theorem bindSelectList_parts {Statement : Type} {scope : Scope} {count : Nat}
    {items : List (AstSelectItem Statement)} {selected result : List NamedExpression}
    (ran : items.foldlM (fun selected item => do
      (← bindSelectItem scope count item).foldlM addSelectItem selected) selected = .ok result) :
    ∃ parts, List.Forall₂ (fun item part => bindSelectItem scope count item = .ok part) items parts ∧
      result = selected ++ parts.flatten := by
  induction items generalizing selected with
  | nil =>
    exact ⟨[], .nil, by rw [← pure_eq_ok.mp ran]; simp⟩
  | cons item items hypothesis =>
    rw [List.foldlM_cons] at ran
    obtain ⟨extended, itemRan, restRan⟩ := bind_eq_ok.mp ran
    obtain ⟨part, partRan, added⟩ := bind_eq_ok.mp itemRan
    obtain ⟨parts, partsRan, rfl⟩ := hypothesis restRan
    refine ⟨part :: parts, .cons partRan partsRan, ?_⟩
    rw [foldlM_addSelectItem added, List.flatten_cons, List.append_assoc]

/-- An item that is no `*`, and what it is bound to. -/
structure ItemBound {Statement : Type} (scope : Scope) (item : AstSelectItem Statement)
    (bound : NamedExpression) : Prop where
  notStar : isStar item.expr = false
  expr : bind scope true item.expr = .ok bound.expr
  name : bound.name = outputName item bound.expr

theorem bindSelectItem_eq_ok {Statement : Type} {scope : Scope} {count : Nat}
    {item : AstSelectItem Statement} {part : List NamedExpression}
    (ran : bindSelectItem scope count item = .ok part) :
    (isStar item.expr = true ∧ count = 1 ∧ part = starItems scope) ∨
      ∃ bound, part = [bound] ∧ ItemBound scope item bound := by
  unfold bindSelectItem at ran
  split at ran
  · rename_i star
    split at ran
    · cases ran
    · rename_i alone
      exact .inl ⟨star, by simpa using alone, (Except.ok.inj ran).symm⟩
  · rename_i notStar
    simp only [bind_eq_ok, pure_eq_ok] at ran
    obtain ⟨expr, exprRan, rfl⟩ := ran
    exact .inr ⟨_, rfl, by simpa using notStar, exprRan, rfl⟩

/-- A select list is the expansion of one `*`, or it is bound item by item. -/
theorem bindSelectList_eq_ok {Statement : Type} {scope : Scope} {items : List (AstSelectItem Statement)}
    {selectList : List NamedExpression} (ran : bindSelectList scope items = .ok selectList) :
    (∃ item, items = [item] ∧ isStar item.expr = true ∧ selectList = starItems scope) ∨
      List.Forall₂ (ItemBound scope) items selectList := by
  obtain ⟨parts, partsRan, rfl⟩ := bindSelectList_parts ran
  rw [List.nil_append]
  -- A star stands alone, so the parts of several items are single items.
  have split {count : Nat} {rest : List (AstSelectItem Statement)} {parts : List (List NamedExpression)}
      (manyOrPlain : count ≠ 1 ∨ ∀ item ∈ rest, isStar item.expr = false)
      (ran : List.Forall₂ (fun item part => bindSelectItem scope count item = .ok part) rest parts) :
      List.Forall₂ (ItemBound scope) rest parts.flatten := by
    induction ran with
    | nil => exact .nil
    | @cons item part rest parts itemRan _ hypothesis =>
      have tail := hypothesis (manyOrPlain.imp_right (fun plain other member =>
        plain other (List.mem_cons_of_mem _ member)))
      rcases bindSelectItem_eq_ok itemRan with ⟨star, alone, _⟩ | ⟨bound, rfl, itemBound⟩
      · rcases manyOrPlain with many | plain
        · exact absurd alone many
        · rw [plain item (List.mem_cons_self ..)] at star
          cases star
      · exact .cons itemBound tail
  by_cases alone : items.length = 1
  · obtain ⟨item, rfl⟩ := List.length_eq_one_iff.mp alone
    cases star : isStar item.expr with
    | true =>
      obtain ⟨part, rfl⟩ : ∃ part, parts = [part] := by
        have length := partsRan.length_eq
        exact List.length_eq_one_iff.mp (by simpa using length.symm)
      have partRan := (List.forall₂_cons.mp partsRan).1
      rcases bindSelectItem_eq_ok partRan with ⟨_, _, rfl⟩ | ⟨bound, _, itemBound⟩
      · exact .inl ⟨item, rfl, star, by simp⟩
      · rw [itemBound.notStar] at star
        cases star
    | false => exact .inr (split (.inr (by simpa using star)) partsRan)
  · exact .inr (split (.inl alone) partsRan)

/-! ## Group keys -/

theorem groupByReference_eq_ok {Statement : Type} {expr : AstExpr Statement} {reference : Reference}
    (ran : groupByReference expr = .ok reference) : references expr = [reference] := by
  unfold groupByReference at ran
  split at ran
  · rw [← Except.ok.inj ran]
    rfl
  · cases ran

/-- A reference that is no column: a plain name that the scope does not have. -/
theorem namesColumn_eq_ok {scope : Scope} {reference : Reference}
    (ran : namesColumn scope reference = .ok false) :
    reference.table = none ∧ findFieldByPlainName scope reference.name = .ok none := by
  unfold namesColumn at ran
  split at ran
  · cases pure_eq_ok.mp ran
  · rename_i plain
    simp only [bind_eq_ok, pure_eq_ok] at ran
    obtain ⟨found, lookedUp, absent⟩ := ran
    obtain rfl := Option.isSome_eq_false_iff.mp absent |> Option.isNone_iff_eq_none.mp
    exact ⟨plain, lookedUp⟩

/-- A group key is a column of the scope or, for a plain name that is none, the select item of that name. -/
theorem bindGroupKey_eq_ok {scope : Scope} {selectList : List NamedExpression} {reference : Reference}
    {key : GroupKey} (ran : bindGroupKey scope selectList reference = .ok key) :
    (bindColumnRef scope reference = .ok key.expr ∧ key.selectIndex = none) ∨
      ∃ index item, selectList[index]? = some item ∧ key = ⟨item.expr, some index⟩ ∧
        item.name = reference.name ∧ namesColumn scope reference = .ok false := by
  unfold bindGroupKey at ran
  obtain ⟨isColumn, named, ran⟩ := bind_eq_ok.mp ran
  split at ran
  · simp only [bind_eq_ok, pure_eq_ok] at ran
    obtain ⟨expr, exprRan, rfl⟩ := ran
    exact .inl ⟨exprRan, rfl⟩
  · rename_i noColumn
    rw [Bool.not_eq_true] at noColumn
    split at ran
    · rename_i index first
      split at ran
      · rename_i item held
        obtain ⟨inRange, isNamed, _⟩ := List.findIdx?_eq_some_iff_getElem.mp first
        obtain rfl : selectList[index] = item := by simpa [inRange] using held
        exact .inr ⟨index, _, held, (pure_eq_ok.mp ran).symm, by simpa using isNamed, noColumn ▸ named⟩
      · cases ran
    · cases ran

/-! ## Predicates -/

theorem bindCondition_eq_ok {Statement : Type} {scope : Scope} {condition : AstExpr Statement}
    {bound : Expression} (ran : bindCondition scope condition = .ok bound) :
    containsAggregate condition = false ∧ bind scope false condition = .ok bound ∧
      bound.resultType.id = .boolean := by
  unfold bindCondition at ran
  split at ran
  · cases ran
  · rename_i plain
    obtain ⟨value, valueRan, checked⟩ := bind_eq_ok.mp ran
    split at checked
    · cases checked
    · rename_i boolean
      obtain rfl := pure_eq_ok.mp checked
      exact ⟨by simpa using plain, valueRan, by simpa using boolean⟩

theorem bindHaving_eq_ok {Statement : Type} {scope : Scope} {isAggregateQuery : Bool}
    {groupByKeys : List String} {having : AstExpr Statement} {bound : Expression}
    (ran : bindHaving scope isAggregateQuery groupByKeys having = .ok bound) :
    bind scope true having = .ok bound ∧ bound.resultType.id = .boolean ∧
      referencesUngroupedColumn groupByKeys false bound = false := by
  unfold bindHaving at ran
  split at ran
  · cases ran
  · obtain ⟨value, valueRan, checked⟩ := bind_eq_ok.mp ran
    split at checked
    · cases checked
    · rename_i boolean
      split at checked
      · cases checked
      · rename_i grouped
        obtain rfl := pure_eq_ok.mp checked
        exact ⟨valueRan, not_not.mp boolean, by simpa using grouped⟩

/-! ## Sort keys over aggregates -/

/-- In an aggregate query a sort key is a column of the output. -/
theorem bindOutputColumn_eq_ok {Statement : Type} {outputSchema : Schema} {expr : AstExpr Statement}
    {bound : Expression} (ran : bindOutputColumn outputSchema expr = .ok bound) :
    ∃ index field, outputSchema[index]? = some field ∧ bound = .column field.name index field.type := by
  unfold bindOutputColumn at ran
  split at ran
  · cases ran
  · split at ran
    · cases ran
    · split at ran
      · cases ran
      · rename_i index _ _ field isField
        exact ⟨index, field, isField, (Except.ok.inj ran).symm⟩

/-! ## Queries -/

theorem bindQueryCommon_join {stmt : AstSelectStatement} {scope : Scope} {isAggregateQuery : Bool}
    {query : BoundQuery} (ran : bindQueryCommon stmt scope isAggregateQuery = .ok query) :
    query.join = none := by
  unfold bindQueryCommon at ran
  simp only [bind_eq_ok] at ran
  obtain ⟨_, _, _, _, _, _, _, _, ran⟩ := ran
  split at ran
  · cases ran
  · simp only [bind_eq_ok, pure_eq_ok] at ran
    obtain ⟨_, _, _, _, rfl⟩ := ran
    rfl

/-- How an accepted query over one table has been bound. -/
theorem bindQuery_eq_ok {stmt : AstSelectStatement} {inputSchema : Schema} {query : BoundQuery}
    (ran : bindQuery stmt inputSchema = .ok query) :
    query.sourcePaths = stmt.source.paths ∧ ∃ groupReferences keys,
      ClausesBound stmt (.table inputSchema) (isAggregateStatement stmt) query groupReferences keys := by
  simp only [bindQuery, bind_eq_ok, pure_eq_ok] at ran
  obtain ⟨bound, boundRan, rfl⟩ := ran
  obtain ⟨groupReferences, keys, clauses⟩ := bindQueryCommon_eq_ok boundRan
  exact ⟨rfl, groupReferences, keys, { clauses with }⟩

theorem bindQuery_join {stmt : AstSelectStatement} {inputSchema : Schema} {query : BoundQuery}
    (ran : bindQuery stmt inputSchema = .ok query) : query.join = none := by
  simp only [bindQuery, bind_eq_ok, pure_eq_ok] at ran
  obtain ⟨bound, boundRan, rfl⟩ := ran
  exact (bindQueryCommon_join boundRan : bound.join = none)

/-- How an accepted query over joined sources has been bound. -/
structure JoinBound (stmt : AstSelectStatement) (first : Schema) (rest : List Schema) (query : BoundQuery)
    (clause : AstJoinClause AstSelectStatement) (steps : List BoundJoinStep) : Prop where
  sameLength : rest.length = clause.steps.length
  stepsBound : bindJoinSteps (.join (joinSources clause (first :: rest))) first.length
    (clause.steps.zip rest) = .ok steps
  join : query.join = some ⟨clause.first.paths, steps⟩
  clausesBound : ∃ groupReferences keys, ClausesBound stmt (.join (joinSources clause (first :: rest)))
    (isAggregateStatement stmt) query groupReferences keys

theorem bindJoinQuery_eq_ok {stmt : AstSelectStatement} {joinSchemas : List Schema} {query : BoundQuery}
    (ran : bindJoinQuery stmt joinSchemas = .ok query) :
    ∃ clause first rest steps, stmt.join = some clause ∧ joinSchemas = first :: rest ∧
      JoinBound stmt first rest query clause steps := by
  unfold bindJoinQuery at ran
  split at ran
  · cases ran
  · rename_i clause first rest isJoin
    split at ran
    · cases ran
    · rename_i sameLength
      simp only [bind_eq_ok, pure_eq_ok] at ran
      obtain ⟨steps, stepsRan, bound, boundRan, rfl⟩ := ran
      obtain ⟨groupReferences, keys, clauses⟩ := bindQueryCommon_eq_ok boundRan
      exact ⟨clause, first, rest, steps, isJoin, rfl, by simpa using sameLength, stepsRan, rfl,
        groupReferences, keys, { clauses with }⟩
  · cases ran

end KernelLake.QueryBindingProofs
