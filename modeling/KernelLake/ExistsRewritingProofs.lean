import KernelLake.ExistsRewriting
import KernelLake.GroupingCheck
import KernelLake.SimplificationProofs
import KernelLake.UnqualifiedNames

/-!
When `EXISTS` as a join means what is written.

A condition is `TRUE` where its conjuncts are, so semi and anti joins behind the sources and the conjuncts that
remain keep the same rows as all conjuncts evaluated row by row. A clause is bound in the same way in another list
of sources if its names find the same columns there.
-/

namespace KernelLake.ExistsRewritingProofs

open KernelLake.Types KernelLake.Expressions KernelLake.Evaluation KernelLake.LogicalPlans KernelLake.SqlAst
open KernelLake.Binder KernelLake.QueryBinding KernelLake.QueryBindingProofs KernelLake.JoinBinding
open KernelLake.LogicalPlanner KernelLake.PlanSemantics KernelLake.PlannedRows KernelLake.JoinConditions
open KernelLake.BindingProofs KernelLake.ColumnProofs KernelLake.GroupingCheck KernelLake.UnqualifiedNames
open KernelLake.ExistsRewriting KernelLake.Library.Relations KernelLake.Library.Results

/-! ## Conjuncts -/

theorem asExists_eq_some {Statement : Type} {conjunct : AstExpr Statement} {sub : Statement} {negated : Bool} :
    asExists conjunct = some (sub, negated) ↔ conjunct = .exists sub negated := by
  unfold asExists
  split
  · simp
  · rename_i other
    constructor
    · intro isSome
      cases isSome
    · rintro rfl
      exact absurd rfl (other sub negated)

/-- An expression that binds is no `EXISTS`. -/
theorem asExists_of_bind {Statement : Type} {scope : Scope} {allowAggregates : Bool}
    {conjunct : AstExpr Statement} {bound : Expression} (ran : bind scope allowAggregates conjunct = .ok bound) :
    asExists conjunct = none := by
  cases isExists : asExists conjunct with
  | none => rfl
  | some found =>
    rw [asExists_eq_some.mp isExists] at ran
    rw [Binder.bind, bindWith] at ran
    cases ran

theorem collectAndConjuncts_single {Statement : Type} {expression conjunct : AstExpr Statement}
    (member : conjunct ∈ collectAndConjuncts expression) : collectAndConjuncts conjunct = [conjunct] := by
  fun_induction collectAndConjuncts expression with
  | case1 left right leftHypothesis rightHypothesis =>
    exact (List.mem_append.mp member).elim leftHypothesis rightHypothesis
  | case2 expression notAnd =>
    obtain rfl := List.mem_singleton.mp member
    unfold collectAndConjuncts
    split
    · exact absurd rfl (notAnd _ _)
    · rfl

theorem collectAndConjuncts_foldl {Statement : Type} (first : AstExpr Statement) {rest : List (AstExpr Statement)}
    (single : ∀ conjunct ∈ rest, collectAndConjuncts conjunct = [conjunct]) :
    collectAndConjuncts (rest.foldl (.binary .and) first) = collectAndConjuncts first ++ rest := by
  induction rest generalizing first with
  | nil => exact (List.append_nil _).symm
  | cons next rest hypothesis =>
    obtain ⟨nextSingle, restSingle⟩ := List.forall_mem_cons.mp single
    rw [List.foldl_cons, hypothesis _ restSingle, collectAndConjuncts, nextSingle, List.append_assoc]
    rfl

/-- The conjuncts of a rebuilt conjunction are those that it was built from. -/
theorem collectAndConjuncts_rebuildAnd {Statement : Type} {conjuncts : List (AstExpr Statement)}
    (single : ∀ conjunct ∈ conjuncts, collectAndConjuncts conjunct = [conjunct]) :
    (rebuildAnd conjuncts).toList.flatMap collectAndConjuncts = conjuncts := by
  cases conjuncts with
  | nil => rfl
  | cons first rest =>
    obtain ⟨firstSingle, restSingle⟩ := List.forall_mem_cons.mp single
    rw [rebuildAnd, Option.toList_some, List.flatMap_singleton, collectAndConjuncts_foldl first restSingle,
      firstSingle]
    rfl

theorem combineBinary_and {left right bound : Expression} (ran : combineBinary .and left right = .ok bound) :
    ∃ type, bound = .binary .and left right type := by
  unfold combineBinary at ran
  simp only [isArithmetic, isLogical, Bool.false_eq_true, if_false, if_true] at ran
  split at ran
  · cases ran
  · exact ⟨_, (Except.ok.inj ran).symm⟩

theorem eval_untypedNull {Statement : Type} (scope : Scope) (allowAggregates : Bool)
    {expression : AstExpr Statement} (untyped : isUntypedNull expression = true) :
    ∃ bound, bind scope allowAggregates expression = .ok bound ∧ ∀ row, eval bound row = .null := by
  unfold isUntypedNull at untyped
  split at untyped
  · exact ⟨_, rfl, fun _ => rfl⟩
  · cases untyped

/-- A condition binds together with each of its conjuncts, and is `TRUE` where all of them are. -/
theorem bind_collectAndConjuncts {Statement : Type} {scope : Scope} {expression : AstExpr Statement}
    {bound : Expression} (ran : bind scope false expression = .ok bound) :
    ∃ bounds, (collectAndConjuncts expression).mapM (bind scope false) = .ok bounds ∧
      ∀ row, (eval bound row).isTrue = passesAll bounds row := by
  fun_induction collectAndConjuncts expression generalizing bound with
  | case1 left right leftHypothesis rightHypothesis =>
    -- Both sides bind by themselves, an untyped `NULL` to another `NULL`.
    obtain ⟨left', right', leftBounds, rightBounds, leftRan, rightRan, combined, leftSame, rightSame⟩ :
        ∃ left' right' leftBounds rightBounds,
          (collectAndConjuncts left).mapM (bind scope false) = .ok leftBounds ∧
          (collectAndConjuncts right).mapM (bind scope false) = .ok rightBounds ∧
          combineBinary .and left' right' = .ok bound ∧
          (∀ row, (eval left' row).isTrue = passesAll leftBounds row) ∧
          ∀ row, (eval right' row).isTrue = passesAll rightBounds row := by
      simp only [Binder.bind, bindWith] at ran
      split at ran
      · rename_i leftNull
        obtain ⟨right', rightRan, combined⟩ := bind_eq_ok.mp ran
        obtain ⟨null, nullRan, isNull⟩ := eval_untypedNull scope false (Bool.and_eq_true_iff.mp leftNull).1
        obtain ⟨leftBounds, leftRan, leftSame⟩ := leftHypothesis nullRan
        obtain ⟨rightBounds, rightRan, rightSame⟩ := rightHypothesis rightRan
        exact ⟨_, right', leftBounds, rightBounds, leftRan, rightRan, combined,
          fun row => by rw [← leftSame, isNull]; rfl, rightSame⟩
      · split at ran
        · rename_i rightNull
          obtain ⟨left', leftRan, combined⟩ := bind_eq_ok.mp ran
          obtain ⟨null, nullRan, isNull⟩ := eval_untypedNull scope false (Bool.and_eq_true_iff.mp rightNull).1
          obtain ⟨leftBounds, leftRan, leftSame⟩ := leftHypothesis leftRan
          obtain ⟨rightBounds, rightRan, rightSame⟩ := rightHypothesis nullRan
          exact ⟨left', _, leftBounds, rightBounds, leftRan, rightRan, combined, leftSame,
            fun row => by rw [← rightSame, isNull]; rfl⟩
        · simp only [bind_eq_ok] at ran
          obtain ⟨left', leftRan, right', rightRan, combined⟩ := ran
          obtain ⟨leftBounds, leftRan, leftSame⟩ := leftHypothesis leftRan
          obtain ⟨rightBounds, rightRan, rightSame⟩ := rightHypothesis rightRan
          exact ⟨left', right', leftBounds, rightBounds, leftRan, rightRan, combined, leftSame, rightSame⟩
    obtain ⟨type, rfl⟩ := combineBinary_and combined
    refine ⟨leftBounds ++ rightBounds, ?_, fun row => ?_⟩
    · exact mapM_eq_ok.mpr (List.rel_append (mapM_eq_ok.mp leftRan) (mapM_eq_ok.mp rightRan))
    · simp only [passesAll, List.all_append] at leftSame rightSame ⊢
      rw [← leftSame, ← rightSame]
      simp [evalIn, binaryValue]
  | case2 expression notAnd =>
    refine ⟨[bound], mapM_eq_ok.mpr (.cons ran .nil), fun row => ?_⟩
    simp [passesAll]

/-! ## Lookups that agree -/

/-- A name that resolves names a column. -/
theorem namesColumn_of_resolved {scope : Scope} {reference : Reference} {column : Expression}
    (ran : bindColumnRef scope reference = .ok column) : namesColumn scope reference = .ok true := by
  obtain ⟨name, table⟩ := reference
  cases table with
  | some table => rfl
  | none =>
    cases scope with
    | table schema =>
      obtain ⟨position, field, found, _, _⟩ := resolveColumn_eq_ok ran
      exact bind_eq_ok.mpr ⟨some position, pure_eq_ok.mpr found, rfl⟩
    | join sources =>
      simp only [bindColumnRef, bind_eq_ok] at ran
      obtain ⟨found, lookedUp, ran⟩ := ran
      cases found with
      | none => cases ran
      | some place =>
        exact bind_eq_ok.mpr ⟨some place.1, bind_eq_ok.mpr ⟨some place, lookedUp, rfl⟩, rfl⟩

/-- Another scope has the columns of the given names, and none of the plain names that the scope lacks. -/
structure Narrows (scope other : Scope) (written : List Reference) : Prop where
  names : Agrees (bindColumnRef scope) (bindColumnRef other) written
  absent : ∀ name, findFieldByPlainName scope name = .ok none → findFieldByPlainName other name = .ok none

section Clauses

variable {scope other : Scope}

theorem Narrows.subset {written fewer : List Reference} (narrows : Narrows scope other written)
    (isPart : fewer ⊆ written) : Narrows scope other fewer :=
  ⟨fun reference member => narrows.names reference (isPart member), narrows.absent⟩

theorem bind_narrows {Statement : Type} {allowAggregates : Bool} {expression : AstExpr Statement}
    {bound : Expression} (narrows : Narrows scope other (references expression))
    (ran : bind scope allowAggregates expression = .ok bound) :
    bind other allowAggregates expression = .ok bound :=
  bindWith_agrees allowAggregates expression narrows.names bound ran

theorem bindSelectList_narrows {Statement : Type} {items : List (AstSelectItem Statement)}
    {selectList : List NamedExpression}
    (narrows : Narrows scope other (items.flatMap (fun item => references item.expr)))
    (stars : ∀ item ∈ items, isStar item.expr = true → starItems scope = starItems other)
    (ran : bindSelectList scope items = .ok selectList) : bindSelectList other items = .ok selectList := by
  refine foldlM_of_imp (fun item member selected next itemRan => ?_) ran
  obtain ⟨part, partRan, added⟩ := bind_eq_ok.mp itemRan
  refine bind_eq_ok.mpr ⟨part, ?_, added⟩
  unfold bindSelectItem at partRan ⊢
  split at partRan
  · rename_i star
    rw [if_pos star, ← stars item member star]
    exact partRan
  · rename_i notStar
    rw [if_neg notStar]
    simp only [bind_eq_ok] at partRan ⊢
    obtain ⟨bound, boundRan, isPart⟩ := partRan
    exact ⟨bound, bind_narrows (narrows.subset (fun _ inItem =>
      List.mem_flatMap_of_mem member inItem)) boundRan, isPart⟩

theorem bindGroupKey_narrows {selectList : List NamedExpression} {reference : Reference} {key : GroupKey}
    (narrows : Narrows scope other [reference]) (ran : bindGroupKey scope selectList reference = .ok key) :
    bindGroupKey other selectList reference = .ok key := by
  unfold bindGroupKey at ran ⊢
  obtain ⟨isColumn, named, ran⟩ := bind_eq_ok.mp ran
  cases isColumn with
  | true =>
    simp only [if_true, bind_eq_ok] at ran
    obtain ⟨column, columnRan, isKey⟩ := ran
    have found := narrows.names reference (List.mem_singleton_self _) column columnRan
    exact bind_eq_ok.mpr ⟨true, namesColumn_of_resolved found, bind_eq_ok.mpr ⟨column, found, isKey⟩⟩
  | false =>
    obtain ⟨plain, absent⟩ := namesColumn_eq_ok named
    refine bind_eq_ok.mpr ⟨false, ?_, ran⟩
    unfold namesColumn
    rw [plain]
    exact bind_eq_ok.mpr ⟨none, narrows.absent _ absent, rfl⟩

theorem bindHaving_narrows {Statement : Type} {isAggregateQuery : Bool} {groupByKeys : List String}
    {having : AstExpr Statement} {bound : Expression} (narrows : Narrows scope other (references having))
    (ran : bindHaving scope isAggregateQuery groupByKeys having = .ok bound) :
    bindHaving other isAggregateQuery groupByKeys having = .ok bound := by
  unfold bindHaving at ran ⊢
  split at ran
  · cases ran
  · rename_i aggregates
    obtain ⟨value, valueRan, checked⟩ := bind_eq_ok.mp ran
    rw [if_neg aggregates]
    exact bind_eq_ok.mpr ⟨value, bind_narrows narrows valueRan, checked⟩

/-- In another scope with the same columns the clauses beside `WHERE` are bound in the same way. -/
theorem clausesBound_narrows {stmt : AstSelectStatement} {query : BoundQuery} {groupReferences : List Reference}
    {keys : List GroupKey} (narrows : Narrows scope other (outerReferences stmt))
    (stars : ∀ item ∈ stmt.selectList, isStar item.expr = true → starItems scope = starItems other)
    (clauses : ClausesBound stmt scope (isAggregateStatement stmt) query groupReferences keys) :
    ClausesBound { stmt with condition := none } other (isAggregateStatement stmt) { query with condition := none }
      groupReferences keys := by
  refine { clauses with selectList := ?_, condition := rfl, keysBound := ?_, having := ?_, orderBy := ?_ }
  · refine bindSelectList_narrows (narrows.subset fun reference member => ?_) stars clauses.selectList
    simp [outerReferences, member]
  · refine mapM_of_imp (fun reference member key keyRan => ?_) clauses.keysBound
    obtain ⟨expression, inKeys, isWritten⟩ := exists_of_mem_mapM clauses.keysWritten member
    refine bindGroupKey_narrows (narrows.subset fun found isFound => ?_) keyRan
    rw [List.mem_singleton.mp isFound]
    have inGroupBy : reference ∈ stmt.groupBy.flatMap references :=
      List.mem_flatMap.mpr ⟨expression, inKeys, by simp [groupByReference_eq_ok isWritten]⟩
    simp [outerReferences, inGroupBy]
  · refine optionMapM_of_imp (fun having isHaving bound boundRan => ?_) clauses.having
    refine bindHaving_narrows (narrows.subset fun reference member => ?_) boundRan
    have inHaving : reference ∈ stmt.having.toList.flatMap references :=
      List.mem_flatMap.mpr ⟨having, Option.mem_toList.mpr isHaving, member⟩
    simp [outerReferences, inHaving]
  · refine mapM_of_imp (fun item member key keyRan => ?_) clauses.orderBy
    unfold bindOrderByItem at keyRan ⊢
    split at keyRan
    · rename_i aggregates
      rwa [if_pos aggregates]
    · rename_i plain
      rw [if_neg plain]
      obtain ⟨bound, boundRan, isKey⟩ := bind_eq_ok.mp keyRan
      refine bind_eq_ok.mpr ⟨bound, bind_narrows (narrows.subset fun reference inItem => ?_) boundRan, isKey⟩
      have inOrderBy : reference ∈ stmt.orderBy.flatMap (fun item => references item.expr) :=
        List.mem_flatMap.mpr ⟨item, member, inItem⟩
      simp [outerReferences, plain, inOrderBy]

end Clauses

/-- Clauses that can be bound make a query. -/
theorem bindQueryCommon_of_clauses {stmt : AstSelectStatement} {scope : Scope} {isAggregateQuery : Bool}
    {query : BoundQuery} {groupReferences : List Reference} {keys : List GroupKey}
    (clauses : ClausesBound stmt scope isAggregateQuery query groupReferences keys) :
    bindQueryCommon stmt scope isAggregateQuery = .ok { query with sourcePaths := [], join := none } := by
  unfold bindQueryCommon
  simp only [bind_eq_ok]
  refine ⟨groupReferences, clauses.keysWritten, query.selectList, clauses.selectList, query.condition,
    clauses.condition, keys, clauses.keysBound, ?_⟩
  rw [if_neg]
  · simp only [bind_eq_ok, pure_eq_ok]
    refine ⟨query.having, clauses.having, query.orderBy, clauses.outputSchema ▸ clauses.orderBy, ?_⟩
    rw [← clauses.outputSchema, ← clauses.groupBy, ← clauses.limit, ← clauses.isAggregate]
  · simp only [Bool.and_eq_true, List.any_eq_true, not_and, not_exists, Bool.not_eq_true]
    exact fun aggregates item member => clauses.grouped aggregates item member

/-! ## Chains -/

section Chains

variable {tables : Tables} {scope other : Scope}

theorem writtenJoins_append {left : List Row} {steps more : List (AstJoinStep AstSelectStatement × JoinInput)} :
    writtenJoins tables scope left (steps ++ more) =
      writtenJoins tables scope left steps >>= fun joined => writtenJoins tables scope joined more := by
  induction steps generalizing left with
  | nil => rfl
  | cons step steps hypothesis =>
    rw [List.cons_append, writtenJoins, writtenJoins, bind_assoc]
    exact bind_congr (fun condition => hypothesis)

theorem writtenJoins_narrows {left joined : List Row} {steps : List (AstJoinStep AstSelectStatement × JoinInput)}
    (narrows : Narrows scope other (steps.flatMap (fun step => references step.1.condition)))
    (ran : writtenJoins tables scope left steps = .ok joined) :
    writtenJoins tables other left steps = .ok joined := by
  induction steps generalizing left with
  | nil => exact ran
  | cons step steps hypothesis =>
    rw [writtenJoins, bind_eq_ok] at ran ⊢
    obtain ⟨condition, conditionRan, restRan⟩ := ran
    exact ⟨condition, bind_narrows (narrows.subset (List.subset_append_left _ _)) conditionRan,
      hypothesis (narrows.subset (List.subset_append_right _ _)) restRan⟩

end Chains

/-! ## Planned statements -/

/-- The scope in which a statement is bound. -/
def planScope (catalog : Catalog) (stmt : AstSelectStatement) : Scope :=
  match stmt.join, stmt.fromSubquery with
  | some _, _ => .join (sourcesOf catalog stmt)
  | none, some derived => .table (catalog.derivedPlan derived).outputSchema
  | none, none => .table (catalog.schema stmt.source.paths)

theorem zip_joined (catalog : Catalog) (steps : List (AstJoinStep AstSelectStatement)) :
    steps.zip (steps.map catalog.joined) = steps.map (fun step => (step, catalog.joined step)) := by
  rw [← List.zip_map', List.map_id']

/-- A planned statement has the rows that its clauses make of the rows of its sources. -/
theorem planStatement_eq_ok {catalog : Catalog} {stmt : AstSelectStatement} {query : BoundQuery} {plan : LogicalPlan}
    (ran : planStatement catalog stmt = .ok (query, plan)) (tables : Tables) :
    ∃ joined groupReferences keys, sourceRows catalog tables stmt = .ok joined ∧
      ClausesBound stmt (planScope catalog stmt) (isAggregateStatement stmt) query groupReferences keys ∧
      rows tables plan = queryRows query joined := by
  unfold planStatement at ran
  unfold sourceRows planScope
  cases isJoin : stmt.join with
  | some clause =>
    simp only [isJoin] at ran ⊢
    simp only [bind_eq_ok, pure_eq_ok, Prod.mk.injEq] at ran
    obtain ⟨_, bound, _, planned, rfl, rfl⟩ := ran
    obtain ⟨clause', _, _, steps, isClause, isCons, joinBound⟩ := bindJoinQuery_eq_ok bound
    obtain rfl := Option.some.inj (isJoin.symm.trans isClause)
    rw [Catalog.inputs, List.map_cons] at isCons
    obtain ⟨rfl, rfl⟩ := List.cons.inj isCons
    obtain ⟨groupReferences, keys, clauses⟩ := joinBound.clausesBound
    have isSources : sourcesOf catalog stmt = joinSources clause ((catalog.inputs clause).map JoinInput.schema) := by
      unfold sourcesOf
      rw [isJoin]
    have joined := @rows_joinChain tables _ (.scan (.make clause.first.paths (catalog.schema clause.first.paths)
      (catalog.partitionColumns clause.first.paths))) _ _ _ joinBound.stepsBound
    rw [zip_joined] at joined
    simp only [buildJoinPlan, Catalog.inputs, joinBound.join] at planned
    split at planned
    · cases planned
    · obtain rfl := Except.ok.inj planned
      refine ⟨_, groupReferences, keys, ?_, ?_, rows_finishLogicalPlan ..⟩
      · simp only [isSources]
        exact joined
      · simp only [isSources]
        exact clauses
  | none =>
    cases isDerived : stmt.fromSubquery with
    | some derived =>
      simp only [isJoin, isDerived, bind_eq_ok, pure_eq_ok, Prod.mk.injEq] at ran ⊢
      obtain ⟨_, bound, rfl, rfl⟩ := ran
      obtain ⟨_, groupReferences, keys, clauses⟩ := bindQuery_eq_ok bound
      exact ⟨_, groupReferences, keys, rfl, clauses, rows_finishLogicalPlan ..⟩
    | none =>
      simp only [isJoin, isDerived, bind_eq_ok, pure_eq_ok, Prod.mk.injEq] at ran ⊢
      obtain ⟨_, bound, rfl, rfl⟩ := ran
      obtain ⟨isPaths, groupReferences, keys, clauses⟩ := bindQuery_eq_ok bound
      refine ⟨_, groupReferences, keys, rfl, clauses, ?_⟩
      rw [buildLogicalPlan, rows_finishLogicalPlan, isPaths]
      rfl

/-! ## `WHERE` clauses -/

theorem sameColumns_agrees {resolve other : Reference → Except String Expression} {written : List Reference}
    (same : sameColumns resolve other written = true) : Agrees resolve other written := by
  intro reference member column resolved
  have found := List.all_eq_true.mp same reference member
  rw [resolved] at found
  exact of_decide_eq_true found

theorem rewrittenStep_eq_some {conjunct : SqlExpr} {step : AstJoinStep AstSelectStatement}
    (isStep : rewrittenStep conjunct = some step) :
    ∃ sub negated condition, asExists conjunct = some (sub, negated) ∧ sub.condition = some condition ∧
      overOneTable sub = true ∧
      step = { source := sub.source, condition, joinType := if negated then .leftAnti else .leftSemi } := by
  simp only [rewrittenStep, Option.bind_eq_bind, Option.bind_eq_some_iff] at isStep
  obtain ⟨⟨sub, negated⟩, isExists, condition, isCondition, isStep⟩ := isStep
  split at isStep
  · rename_i plain
    refine ⟨sub, negated, condition, isExists, isCondition, ?_, (Option.some.inj isStep).symm⟩
    simp only [Bool.and_eq_true] at plain
    simp [overOneTable, plain]
  · cases isStep

theorem joinRows_exists (on : Row → Row → Bool) (negated : Bool) (width : Nat) (left right : List Row) :
    joinRows on (if negated then .leftAnti else .leftSemi) width left right =
      left.filter (fun row => right.any (on row) != negated) := by
  cases negated with
  | false => exact List.filter_congr (fun row _ => (Bool.bne_false _).symm)
  | true => exact List.filter_congr (fun row _ => (Bool.bne_true _).symm)

section Tests

variable {catalog : Catalog} {tables : Tables} {scope : Scope} {outer : List JoinSource}

/-- A condition is `TRUE` of the rows of which all its conjuncts are. -/
theorem filterRowsIf_conjuncts {stmt : AstSelectStatement} {condition : Option Expression}
    (ran : stmt.condition.mapM (bindCondition scope) = .ok condition) :
    ∃ bounds, (whereConjuncts stmt).mapM (bind scope false) = .ok bounds ∧
      ∀ input, filterRowsIf condition input = input.filter (passesAll bounds) := by
  unfold whereConjuncts
  rcases optionMapM_eq_ok.mp ran with ⟨absent, rfl⟩ | ⟨written, bound, isWritten, rfl, boundRan⟩
  · rw [absent]
    exact ⟨[], rfl, fun input => (filter_passesAll_nil input).symm⟩
  · obtain ⟨bounds, boundsRan, same⟩ := bind_collectAndConjuncts (bindCondition_eq_ok boundRan).2.1
    rw [isWritten, Option.toList_some, List.flatMap_singleton]
    exact ⟨bounds, boundsRan, fun input => List.filter_congr (fun row _ => same row)⟩

theorem conjunctTest_of_bind {conjunct : SqlExpr} {bound : Expression}
    (narrows : Narrows scope (.join outer) (references conjunct)) (ran : bind scope false conjunct = .ok bound) :
    conjunctTest catalog tables outer conjunct = .ok (fun row => (eval bound row).isTrue) := by
  unfold conjunctTest
  rw [asExists_of_bind ran]
  exact bind_eq_ok.mpr ⟨bound, bind_narrows narrows ran, rfl⟩

theorem returnsRow_of_bind {sub : AstSelectStatement} {condition : SqlExpr} {bound : Expression}
    (single : overOneTable sub = true) (isCondition : sub.condition = some condition)
    (kept : keepsSubquery catalog scope outer sub = true) (ran : bind scope false condition = .ok bound) :
    returnsRow catalog tables outer sub =
      .ok (fun row => (tableRows catalog tables sub.source.paths).any (holdsOn bound row)) := by
  simp only [keepsSubquery, isCondition, Bool.and_eq_true, Bool.not_eq_true', Option.toList_some,
    List.flatMap_singleton] at kept
  obtain ⟨noAggregate, same⟩ := kept
  have correlated := bindWith_agrees false condition (sameColumns_agrees same) bound ran
  unfold returnsRow
  rw [if_pos single, isCondition]
  refine bind_eq_ok.mpr ⟨some bound, optionMapM_eq_ok.mpr (.inr ⟨_, _, rfl, rfl, correlated⟩), ?_⟩
  rw [noAggregate]
  rfl

/-- Semi and anti joins together with the other conjuncts keep the rows of which every conjunct is `TRUE`. -/
theorem tests_of_joins {conjuncts : List SqlExpr} {left joined : List Row} {bounds : List Expression}
    (narrows : Narrows scope (.join outer) (conjuncts.flatMap references))
    (kept : ∀ found ∈ conjuncts.filterMap asExists, keepsSubquery catalog scope outer found.1 = true)
    (joinsRan : writtenJoins tables scope left
      ((conjuncts.filterMap rewrittenStep).map (fun step => (step, catalog.joined step))) = .ok joined)
    (othersRan : (conjuncts.filter (fun conjunct => (rewrittenStep conjunct).isNone)).mapM (bind scope false) =
      .ok bounds) :
    ∃ tests, conjuncts.mapM (conjunctTest catalog tables outer) = .ok tests ∧
      left.filter (fun row => tests.all (fun test => test row)) = joined.filter (passesAll bounds) := by
  induction conjuncts generalizing left bounds with
  | nil =>
    obtain rfl := pure_eq_ok.mp joinsRan
    obtain rfl := pure_eq_ok.mp othersRan
    exact ⟨[], rfl, rfl⟩
  | cons conjunct conjuncts hypothesis =>
    have restNarrows := narrows.subset (List.subset_append_right _ _)
    have restKept : ∀ found ∈ conjuncts.filterMap asExists, keepsSubquery catalog scope outer found.1 = true := by
      intro found member
      obtain ⟨other, inRest, isFound⟩ := List.mem_filterMap.mp member
      exact kept found (List.mem_filterMap.mpr ⟨other, List.mem_cons_of_mem _ inRest, isFound⟩)
    cases isStep : rewrittenStep conjunct with
    | some step =>
      obtain ⟨sub, negated, condition, isExists, isCondition, single, rfl⟩ := rewrittenStep_eq_some isStep
      rw [List.filterMap_cons_some isStep, List.map_cons, writtenJoins, bind_eq_ok] at joinsRan
      obtain ⟨bound, boundRan, restRan⟩ := joinsRan
      rw [List.filter_cons_of_neg (by simp [isStep])] at othersRan
      obtain ⟨tests, testsRan, same⟩ := hypothesis restNarrows restKept restRan othersRan
      have subKept := kept (sub, negated) (List.mem_filterMap.mpr ⟨conjunct, List.mem_cons_self .., isExists⟩)
      have test : conjunctTest catalog tables outer conjunct =
          .ok (fun row => (tableRows catalog tables sub.source.paths).any (holdsOn bound row) != negated) := by
        unfold conjunctTest
        rw [isExists]
        exact bind_eq_ok.mpr ⟨_, returnsRow_of_bind single isCondition subKept boundRan, rfl⟩
      refine ⟨_ :: tests, mapM_eq_ok.mpr (.cons test (mapM_eq_ok.mp testsRan)), ?_⟩
      · rw [← same, joinRows_exists, List.filter_filter]
        exact List.filter_congr (fun row _ => Bool.and_comm _ _)
    | none =>
      rw [List.filterMap_cons_none isStep] at joinsRan
      rw [List.filter_cons_of_pos (by simp [isStep]), List.mapM_cons, bind_eq_ok] at othersRan
      obtain ⟨bound, boundRan, othersRan⟩ := othersRan
      simp only [bind_eq_ok, pure_eq_ok] at othersRan
      obtain ⟨rest, restRan, rfl⟩ := othersRan
      obtain ⟨tests, testsRan, same⟩ := hypothesis restNarrows restKept joinsRan restRan
      have test : conjunctTest catalog tables outer conjunct = _ :=
        conjunctTest_of_bind (narrows.subset (List.subset_append_left _ _)) boundRan
      refine ⟨_ :: tests, mapM_eq_ok.mpr (.cons test (mapM_eq_ok.mp testsRan)), ?_⟩
      simp only [List.all_cons]
      rw [← List.filter_filter, same, List.filter_filter]
      rfl

end Tests

/-! ## Statements -/

/-- What a statement becomes: itself, or one with a join for each `EXISTS` behind its sources. -/
theorem rewriteExistsSubqueries_cases (stmt : AstSelectStatement) :
    rewriteExistsSubqueries stmt = stmt ∨
      stmt.fromSubquery = none ∧ hasExists stmt = true ∧ ∃ clause, clause = stmt.join.getD ⟨stmt.source, []⟩ ∧
        rewriteExistsSubqueries stmt =
          { stmt with
            join := some { clause with steps := clause.steps ++ (whereConjuncts stmt).filterMap rewrittenStep }
            condition := rebuildAnd ((whereConjuncts stmt).filter
              (fun conjunct => (rewrittenStep conjunct).isNone)) } := by
  unfold rewriteExistsSubqueries
  split
  · exact .inl rfl
  · rename_i condition isCondition
    have conjuncts : whereConjuncts stmt = collectAndConjuncts condition := by
      rw [whereConjuncts, isCondition, Option.toList_some, List.flatMap_singleton]
    split
    · exact .inl rfl
    · rename_i notDerived
      split
      · exact .inl rfl
      · simp only
        split
        · exact .inl rfl
        · rename_i someStep
          rw [conjuncts]
          refine .inr ⟨by simpa using notDerived, ?_, _, rfl, rfl⟩
          simp only [List.isEmpty_iff, List.filterMap_eq_nil_iff, not_forall] at someStep
          obtain ⟨conjunct, member, notNone⟩ := someStep
          obtain ⟨step, isStep⟩ := Option.ne_none_iff_exists'.mp notNone
          obtain ⟨_, _, _, isExists, _⟩ := rewrittenStep_eq_some isStep
          rw [hasExists, conjuncts]
          exact List.any_eq_true.mpr ⟨conjunct, member, by rw [isExists]; rfl⟩

section Statements

variable {catalog : Catalog} {tables : Tables}

theorem conjunctReferences_subset (stmt : AstSelectStatement) :
    (whereConjuncts stmt).flatMap references ⊆ outerReferences stmt := by
  intro reference member
  simp only [outerReferences, List.mem_append]
  tauto

theorem stepReferences_subset {stmt : AstSelectStatement} {clause : AstJoinClause AstSelectStatement}
    (isClause : clause = stmt.join.getD ⟨stmt.source, []⟩) :
    clause.steps.flatMap (fun step => references step.condition) ⊆ outerReferences stmt := by
  intro reference member
  have inJoin : reference ∈ stmt.join.toList.flatMap (fun own =>
      own.steps.flatMap (fun step => references step.condition)) := by
    cases isJoin : stmt.join with
    | some own =>
      rw [isClause, isJoin] at member
      simpa using member
    | none =>
      rw [isClause, isJoin] at member
      simp at member
  simp only [outerReferences, List.mem_append]
  tauto

/-- What is planned for a statement is what its clauses make of the rows that pass the tests. -/
theorem writtenQuery_of_clauses {stmt : AstSelectStatement} {scope : Scope} {query : BoundQuery}
    {groupReferences : List Reference} {keys : List GroupKey} {left joined : List Row} {tests : List (Row → Bool)}
    (sourced : sourceRows catalog tables stmt = .ok left)
    (tested : (whereConjuncts stmt).mapM (conjunctTest catalog tables (sourcesOf catalog stmt)) = .ok tests)
    (narrows : Narrows scope (.join (sourcesOf catalog stmt)) (outerReferences stmt))
    (stars : ∀ item ∈ stmt.selectList, isStar item.expr = true →
      starItems scope = starItems (.join (sourcesOf catalog stmt)))
    (clauses : ClausesBound { stmt with condition := none } scope (isAggregateStatement stmt)
      { query with condition := none } groupReferences keys)
    (kept : left.filter (fun row => tests.all (fun test => test row)) = filterRowsIf query.condition joined) :
    writtenQuery catalog tables stmt = .ok (query.outputSchema, queryRows query joined) := by
  have fewer : outerReferences { stmt with condition := none } ⊆ outerReferences stmt := by
    intro reference member
    simp only [outerReferences, whereConjuncts, Option.toList_none, List.flatMap_nil, List.append_nil,
      List.mem_append] at member ⊢
    tauto
  have bound := bindQueryCommon_of_clauses (clausesBound_narrows (narrows.subset fewer) stars clauses)
  unfold writtenQuery
  refine bind_eq_ok.mpr ⟨_, sourced, bind_eq_ok.mpr ⟨_, tested, bind_eq_ok.mpr ⟨_, bound, ?_⟩⟩⟩
  rw [kept]
  rfl

theorem joinSources_inputs (clause : AstJoinClause AstSelectStatement) :
    joinSources clause ((catalog.inputs clause).map JoinInput.schema) =
      tableSource catalog clause.first :: clause.steps.map (fun step =>
        ⟨step.source.tableAlias.getD "", (catalog.joined step).schema, step.joinType⟩) := by
  rw [Catalog.inputs, List.map_cons, joinSources, List.map_map]
  have paired : clause.steps.zip (clause.steps.map (JoinInput.schema ∘ catalog.joined)) =
      clause.steps.map (fun step => (step, (catalog.joined step).schema)) := by
    rw [← List.zip_map', List.map_id']
    rfl
  rw [paired, List.map_map]
  rfl

section Clause

variable {stmt : AstSelectStatement} {clause : AstJoinClause AstSelectStatement}

theorem sourcesOf_clause (notDerived : stmt.fromSubquery = none)
    (isClause : clause = stmt.join.getD ⟨stmt.source, []⟩) :
    sourcesOf catalog stmt = joinSources clause ((catalog.inputs clause).map JoinInput.schema) := by
  unfold sourcesOf
  cases isJoin : stmt.join with
  | some own =>
    rw [isClause, isJoin]
    rfl
  | none =>
    rw [isClause, isJoin, notDerived]
    rfl

theorem sourceRows_clause (notDerived : stmt.fromSubquery = none)
    (isClause : clause = stmt.join.getD ⟨stmt.source, []⟩) :
    sourceRows catalog tables stmt = writtenJoins tables (.join (sourcesOf catalog stmt))
      (tableRows catalog tables clause.first.paths)
      (clause.steps.map (fun step => (step, catalog.joined step))) := by
  unfold sourceRows
  cases isJoin : stmt.join with
  | some own =>
    rw [isClause, isJoin]
    rfl
  | none =>
    rw [isClause, isJoin, notDerived]
    rfl

/-- A rewritten statement has the sources that it had, and the new ones behind them. -/
theorem sourcesOf_rewritten (catalog : Catalog) (notDerived : stmt.fromSubquery = none)
    (isClause : clause = stmt.join.getD ⟨stmt.source, []⟩) (more : List (AstJoinStep AstSelectStatement))
    (condition : Option SqlExpr) :
    ∃ newSources, sourcesOf catalog
        { stmt with join := some { clause with steps := clause.steps ++ more }, condition } =
      sourcesOf catalog stmt ++ newSources := by
  have rewritten : sourcesOf catalog
      { stmt with join := some { clause with steps := clause.steps ++ more }, condition } = _ :=
    joinSources_inputs { clause with steps := clause.steps ++ more }
  rw [rewritten, sourcesOf_clause notDerived isClause, joinSources_inputs, List.map_append]
  exact ⟨_, rfl⟩

end Clause

theorem absent_prefix {sources more : List JoinSource} {name : String}
    (absent : findFieldByPlainName (.join (sources ++ more)) name = .ok none) :
    findFieldByPlainName (.join sources) name = .ok none := by
  simp only [findFieldByPlainName, bind_eq_ok, pure_eq_ok, Option.map_eq_none_iff] at absent ⊢
  obtain ⟨_, ran, rfl⟩ := absent
  refine ⟨none, findPlain_absent (fun source member => ?_), rfl⟩
  exact (findPlain_eq_none ran).2 source (List.mem_append_left _ member)

/-- A single table is a chain of one source. -/
theorem narrows_table (tableAlias : String) (schema : Schema) (written : List Reference) :
    Narrows (.table schema) (.join [⟨tableAlias, schema, .inner⟩]) written where
  names reference _ column resolved := by
    obtain ⟨name, table⟩ := reference
    cases table with
    | some table => cases resolved
    | none =>
      obtain ⟨position, field, found, isField, _⟩ := resolveColumn_eq_ok resolved
      have inside := (List.getElem?_eq_some_iff.mp isField).1
      refine bind_eq_ok.mpr ⟨some (0 + position, tableAlias), ?_, ?_⟩
      · rw [findPlain, found]
        rfl
      · change resolveAt (0 + position) name 0 _ = _
        rw [resolveAt, if_pos (by simpa using inside)]
        exact resolved
  absent name absent := by
    simp only [findFieldByPlainName, pure_eq_ok] at absent
    simp only [findFieldByPlainName, bind_eq_ok, pure_eq_ok]
    exact ⟨none, by rw [findPlain, absent]; rfl, rfl⟩

theorem starItems_table (tableAlias : String) (schema : Schema) :
    starItems (.table schema) = starItems (.join [⟨tableAlias, schema, .inner⟩]) := by
  simp [starItems, allFieldsWithIndex, sourceFields]

/-- The scope in which a statement is bound has its sources. -/
theorem narrows_planScope (catalog : Catalog) (stmt : AstSelectStatement) (written : List Reference) :
    Narrows (planScope catalog stmt) (.join (sourcesOf catalog stmt)) written ∧
      starItems (planScope catalog stmt) = starItems (.join (sourcesOf catalog stmt)) := by
  unfold planScope sourcesOf
  cases stmt.join with
  | some clause => exact ⟨⟨fun _ _ _ resolved => resolved, fun _ absent => absent⟩, rfl⟩
  | none =>
    cases stmt.fromSubquery with
    | some derived => exact ⟨narrows_table .., starItems_table ..⟩
    | none => exact ⟨narrows_table .., starItems_table ..⟩

/-- Without a join for an `EXISTS` a statement has none, since every conjunct has been bound. -/
theorem preserves_unchanged {stmt : AstSelectStatement} {query : BoundQuery} {plan : LogicalPlan}
    (planned : planStatement catalog stmt = .ok (query, plan)) :
    writtenQuery catalog tables stmt = .ok (query.outputSchema, rows tables plan) := by
  obtain ⟨joined, groupReferences, keys, sourced, clauses, isRows⟩ := planStatement_eq_ok planned tables
  obtain ⟨bounds, boundsRan, filtered⟩ := filterRowsIf_conjuncts clauses.condition
  obtain ⟨narrows, stars⟩ := narrows_planScope catalog stmt (outerReferences stmt)
  have noExists : ∀ conjunct ∈ whereConjuncts stmt, asExists conjunct = none := by
    intro conjunct member
    obtain ⟨bound, _, boundRan⟩ := exists_of_mem_left (mapM_eq_ok.mp boundsRan) member
    exact asExists_of_bind boundRan
  have noStep : ∀ conjunct ∈ whereConjuncts stmt, rewrittenStep conjunct = none := by
    intro conjunct member
    simp [rewrittenStep, noExists conjunct member]
  have noJoins : writtenJoins tables (planScope catalog stmt) joined
      (((whereConjuncts stmt).filterMap rewrittenStep).map (fun step => (step, catalog.joined step))) =
        .ok joined := by
    rw [List.filterMap_eq_nil_iff.mpr noStep]
    rfl
  have allBound : ((whereConjuncts stmt).filter (fun conjunct => (rewrittenStep conjunct).isNone)).mapM
      (bind (planScope catalog stmt) false) = .ok bounds := by
    rwa [List.filter_eq_self.mpr (fun conjunct member => by simp [noStep conjunct member])]
  obtain ⟨tests, tested, same⟩ := tests_of_joins (narrows.subset (conjunctReferences_subset stmt))
    (by simp [List.filterMap_eq_nil_iff.mpr noExists]) noJoins allBound
  rw [isRows]
  have others : ClausesBound { stmt with condition := none } (planScope catalog stmt) (isAggregateStatement stmt)
      { query with condition := none } groupReferences keys := { clauses with condition := rfl }
  exact writtenQuery_of_clauses sourced tested narrows (fun _ _ _ => stars) others (by rw [same, filtered])

theorem preserves_rewritten {stmt : AstSelectStatement} {clause : AstJoinClause AstSelectStatement}
    {query : BoundQuery} {plan : LogicalPlan} (notDerived : stmt.fromSubquery = none)
    (isClause : clause = stmt.join.getD ⟨stmt.source, []⟩)
    (rewritten : rewriteExistsSubqueries stmt =
      { stmt with
        join := some { clause with steps := clause.steps ++ (whereConjuncts stmt).filterMap rewrittenStep }
        condition := rebuildAnd ((whereConjuncts stmt).filter (fun conjunct => (rewrittenStep conjunct).isNone)) })
    (planned : planStatement catalog (rewriteExistsSubqueries stmt) = .ok (query, plan))
    (keeps : keepsColumns catalog stmt = true) :
    writtenQuery catalog tables stmt = .ok (query.outputSchema, rows tables plan) := by
  obtain ⟨newSources, isSources⟩ := sourcesOf_rewritten catalog notDerived isClause
    ((whereConjuncts stmt).filterMap rewrittenStep)
    (rebuildAnd ((whereConjuncts stmt).filter (fun conjunct => (rewrittenStep conjunct).isNone)))
  simp only [keepsColumns, Bool.and_eq_true, Bool.not_eq_true'] at keeps
  obtain ⟨⟨noStar, sameNames⟩, subqueries⟩ := keeps
  rw [rewritten] at planned sameNames subqueries
  rw [isSources] at sameNames subqueries
  obtain ⟨joined, groupReferences, keys, sourced, clauses, isRows⟩ := planStatement_eq_ok planned tables
  change ClausesBound _ (.join (sourcesOf catalog _)) _ _ _ _ at clauses
  change writtenJoins tables (.join (sourcesOf catalog _)) _ (List.map _ (clause.steps ++ _)) = .ok joined at sourced
  rw [isSources] at clauses
  rw [isSources, List.map_append, writtenJoins_append, bind_eq_ok] at sourced
  obtain ⟨left, leftRan, joinsRan⟩ := sourced
  have narrows : Narrows (.join (sourcesOf catalog stmt ++ newSources)) (.join (sourcesOf catalog stmt))
      (outerReferences stmt) := ⟨sameColumns_agrees sameNames, fun _ => absent_prefix⟩
  have outerRan : sourceRows catalog tables stmt = .ok left := by
    rw [sourceRows_clause notDerived isClause]
    refine writtenJoins_narrows (narrows.subset ?_) leftRan
    rw [List.flatMap_map]
    exact stepReferences_subset isClause
  obtain ⟨bounds, boundsRan, filtered⟩ := filterRowsIf_conjuncts clauses.condition
  have remaining : whereConjuncts (rewriteExistsSubqueries stmt) =
      (whereConjuncts stmt).filter (fun conjunct => (rewrittenStep conjunct).isNone) := by
    rw [rewritten]
    refine collectAndConjuncts_rebuildAnd (fun conjunct member => ?_)
    obtain ⟨condition, _, isConjunct⟩ := List.mem_flatMap.mp (List.mem_of_mem_filter member)
    exact collectAndConjuncts_single isConjunct
  rw [rewritten] at remaining
  rw [remaining] at boundsRan
  obtain ⟨tests, tested, same⟩ := tests_of_joins (narrows.subset (conjunctReferences_subset stmt))
    (fun found member => List.all_eq_true.mp subqueries found member) joinsRan boundsRan
  rw [isRows]
  have others : ClausesBound { stmt with condition := none } (.join (sourcesOf catalog stmt ++ newSources))
      (isAggregateStatement stmt) { query with condition := none } groupReferences keys :=
    { clauses with condition := rfl }
  refine writtenQuery_of_clauses outerRan tested narrows (fun item member star => ?_) others (by rw [same, filtered])
  exact absurd star (List.any_eq_false.mp noStar item member)

end Statements

/-- A statement in which every `EXISTS` has become a join returns what it says as it is written: the rows of its own
sources for which the subqueries of `EXISTS` return a row and those of `NOT EXISTS` return none, evaluated for each
of the rows, and under the columns that its select list has in these sources. Every name must have its column also
in the joined sources, the select list is no `*` and no subquery of `EXISTS` aggregates; without an `EXISTS`
nothing is asked. -/
theorem rewriteExistsSubqueries_preserves {catalog : Catalog} {stmt : AstSelectStatement} {query : BoundQuery}
    {plan : LogicalPlan} (planned : planStatement catalog (rewriteExistsSubqueries stmt) = .ok (query, plan))
    (kept : hasExists stmt = true → keepsColumns catalog stmt = true) (tables : Tables) :
    writtenQuery catalog tables stmt = .ok (query.outputSchema, rows tables plan) := by
  rcases rewriteExistsSubqueries_cases stmt with unchanged | ⟨notDerived, someExists, clause, isClause, rewritten⟩
  · rw [unchanged] at planned
    exact preserves_unchanged planned
  · exact preserves_rewritten notDerived isClause rewritten planned (kept someExists)

def ordersCatalog : Catalog where
  schema paths := if paths = ["a.parquet"] then ordersInput.schema else linesInput.schema
  partitionColumns _ := []
  derivedPlan _ := .scan (.make [] [] [])

/-- `SELECT <items> FROM b AS <name> WHERE <condition>` -/
def linesQuery (items : List (AstSelectItem AstSelectStatement)) (name : String) (condition : SqlExpr) :
    AstSelectStatement where
  selectList := items
  source := ⟨["b.parquet"], some name⟩
  condition := some condition

/-- `SELECT a.v FROM a WHERE <condition>` -/
def ordersQuery (condition : SqlExpr) : AstSelectStatement where
  selectList := [⟨.columnRef "v" (some "a"), none⟩]
  source := ⟨["a.parquet"], some "a"⟩
  condition := some condition

/-- `EXISTS (SELECT * FROM b WHERE a.k = b.k) AND NOT EXISTS (SELECT * FROM b AS c WHERE a.k = c.k AND c.w <> a.v)` -/
def matchedOnce : SqlExpr :=
  .binary .and (.exists (linesQuery [⟨.star, none⟩] "b" (onKey "b")) false)
    (.exists (linesQuery [⟨.star, none⟩] "c" (.binary .and (onKey "c")
      (.binary .notEqual (.columnRef "w" (some "c")) (.columnRef "v" (some "a"))))) true)

/-- Three orders, the first with its own line, the second with two more than its own, the third with none. -/
def ordersTables : Tables :=
  .ofContents
    [⟨["a.parquet"], ordersInput.schema, [[.int 1, .int 5], [.int 2, .int 6], [.int 3, .int 7]], by decide⟩,
      ⟨["b.parquet"], linesInput.schema,
        [[.int 1, .int 5], [.int 2, .int 6], [.int 2, .int 8], [.int 2, .int (-9)]], by decide⟩]

/-- Only the first order has a line and none that differs from it. -/
theorem rewriteExistsSubqueries_preserves_pair :
    ∃ query plan, planStatement ordersCatalog (rewriteExistsSubqueries (ordersQuery matchedOnce)) = .ok (query, plan) ∧
      writtenQuery ordersCatalog ordersTables (ordersQuery matchedOnce) =
        .ok (query.outputSchema, rows ordersTables plan) ∧
      rows ordersTables plan = [[.int 5]] := by
  refine ⟨_, _, rfl, rewriteExistsSubqueries_preserves rfl (fun _ => by decide +kernel) ordersTables, ?_⟩
  decide +kernel

/-- A subquery that counts always returns a row, but as a join it keeps only matched rows. -/
example :
    let counted := ordersQuery (.exists (linesQuery [⟨.countStar, none⟩] "b" (onKey "b")) false)
    hasExists counted = true ∧ keepsColumns ordersCatalog counted = false := by
  decide +kernel

end KernelLake.ExistsRewritingProofs
