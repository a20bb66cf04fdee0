import KernelLake.ColumnProofs
import KernelLake.JoinBinding

/-!
Bound queries are well typed.

`WellTyped` is what both execution backends assume of an expression without checking it: operands of one
type where an operator wants one, booleans where it wants a truth value. Every expression that binding
accepts is well typed, and so are the conditions that a join's `ON` is split into, which binding rebuilds
and renumbers.
-/

namespace KernelLake.BoundQueryTypes

open KernelLake.Types KernelLake.Expressions KernelLake.LogicalPlans KernelLake.SqlAst KernelLake.Binder
open KernelLake.BoundTypes KernelLake.QueryBinding KernelLake.BindingProofs KernelLake.QueryBindingProofs
open KernelLake.JoinBinding KernelLake.Optimizer KernelLake.Library.Results
open KernelLake.LogicalPlanner (JoinInput JoinInput.schema)

/-! ## Binding -/

/-- A well-typed condition. -/
def IsPredicate (expression : Expression) : Prop :=
  WellTyped expression ∧ expression.resultType.id = .boolean

theorem derivable_wellTyped : Derivable WellTyped BranchesWellTyped where
  literal _ _ typed := typed
  retyped _ typed numeric decimal := typed.retyped numeric decimal
  binary _ _ typed operands left right := ⟨typed, operands, left, right⟩
  unary _ _ typed operandTyped operand := ⟨typed, operandTyped, operand⟩
  cast _ operand := operand
  extract _ _ typed temporal operand := ⟨typed, temporal, operand⟩
  substring _ _ _ typed isString operand := ⟨typed, isString, operand⟩
  between lower upper value lowerTyped upperTyped := ⟨lower, upper, value, lowerTyped, upperTyped⟩
  like _ _ isString value := ⟨isString, value⟩
  caseWhen _ typed branches := ⟨typed, branches⟩
  done := trivial
  otherwise result := result
  when boolean condition result rest := ⟨boolean, condition, result, rest⟩

theorem callsInherit_wellTyped : CallsInherit WellTyped where
  aggregate _ _ typed argument := ⟨typed, argument⟩
  countStar _ typed := typed

/-- Every expression that binding accepts is well typed. -/
theorem bind_wellTyped {Statement : Type} {scope : Scope} {allowAggregates : Bool}
    {written : AstExpr Statement} {bound : Expression}
    (ran : bind scope allowAggregates written = .ok bound) : WellTyped bound := by
  refine bindWith_closed derivable_wellTyped.closed allowAggregates
    (fun _ => callsInherit_wellTyped.closed derivable_wellTyped) written
    (fun reference _ column resolved => ?_) bound ran
  obtain ⟨name, index, type, rfl⟩ := bindColumnRef_column resolved
  trivial

/-! ## Renumbering -/

theorem resultType_shiftColumns (delta : Nat) (expression : Expression) :
    (shiftColumns delta expression).resultType = expression.resultType := by
  cases expression <;> rfl

theorem resultTypes_shiftBranchColumns (delta : Nat) (branches : CaseBranches) :
    resultTypes (shiftBranchColumns delta branches) = resultTypes branches := by
  cases branches with
  | done => rfl
  | otherwise result => simp only [shiftBranchColumns, resultTypes, resultType_shiftColumns]
  | «when» condition result rest =>
    simp only [shiftBranchColumns, resultTypes, resultType_shiftColumns,
      resultTypes_shiftBranchColumns delta rest]

mutual

/-- Renumbering columns changes no type. -/
theorem wellTyped_shiftColumns (delta : Nat) : (expression : Expression) → WellTyped expression →
    WellTyped (shiftColumns delta expression)
  | .column .., _ => trivial
  | .literal .., typed => typed
  | .binary op left right type, ⟨typed, operands, leftTyped, rightTyped⟩ => by
    simp only [shiftColumns, WellTyped, resultType_shiftColumns]
    exact ⟨typed, operands, wellTyped_shiftColumns delta left leftTyped,
      wellTyped_shiftColumns delta right rightTyped⟩
  | .unary op operand type, ⟨typed, operandTyped, inner⟩ => by
    simp only [shiftColumns, WellTyped, resultType_shiftColumns]
    exact ⟨typed, operandTyped, wellTyped_shiftColumns delta operand inner⟩
  | .cast operand type, typed => wellTyped_shiftColumns delta operand typed
  | .extract part operand type, ⟨typed, temporal, inner⟩ => by
    simp only [shiftColumns, WellTyped, resultType_shiftColumns]
    exact ⟨typed, temporal, wellTyped_shiftColumns delta operand inner⟩
  | .substring operand start length type, ⟨typed, isString, inner⟩ => by
    simp only [shiftColumns, WellTyped, resultType_shiftColumns]
    exact ⟨typed, isString, wellTyped_shiftColumns delta operand inner⟩
  | .between value lower upper, ⟨sameLower, sameUpper, valueTyped, lowerTyped, upperTyped⟩ => by
    simp only [shiftColumns, WellTyped, resultType_shiftColumns]
    exact ⟨sameLower, sameUpper, wellTyped_shiftColumns delta value valueTyped,
      wellTyped_shiftColumns delta lower lowerTyped, wellTyped_shiftColumns delta upper upperTyped⟩
  | .like value pattern negated, ⟨isString, inner⟩ => by
    simp only [shiftColumns, WellTyped, resultType_shiftColumns]
    exact ⟨isString, wellTyped_shiftColumns delta value inner⟩
  | .caseWhen branches type, ⟨typed, inner⟩ => by
    simp only [shiftColumns, WellTyped, resultTypes_shiftBranchColumns]
    exact ⟨typed, branchesWellTyped_shiftColumns delta branches inner⟩
  | .aggregate function argument type, typed => typed
  | .countStar type, typed => typed

theorem branchesWellTyped_shiftColumns (delta : Nat) : (branches : CaseBranches) →
    BranchesWellTyped branches → BranchesWellTyped (shiftBranchColumns delta branches)
  | .done, _ => trivial
  | .otherwise result, typed => wellTyped_shiftColumns delta result typed
  | .when condition result rest, ⟨boolean, conditionTyped, resultTyped, restTyped⟩ => by
    simp only [shiftBranchColumns, BranchesWellTyped, resultType_shiftColumns]
    exact ⟨boolean, wellTyped_shiftColumns delta condition conditionTyped,
      wellTyped_shiftColumns delta result resultTyped, branchesWellTyped_shiftColumns delta rest restTyped⟩

end

/-! ## Join conditions -/

/-- The conjuncts of a predicate are predicates. -/
theorem isPredicate_conjuncts {predicate : Expression} (isPredicate : IsPredicate predicate) :
    ∀ conjunct ∈ collectConjuncts predicate, IsPredicate conjunct := by
  fun_induction collectConjuncts predicate with
  | case1 left right type leftIH rightIH =>
    obtain ⟨⟨_, ⟨leftBoolean, rightBoolean⟩, leftTyped, rightTyped⟩, _⟩ := isPredicate
    exact List.forall_mem_append.mpr ⟨leftIH ⟨leftTyped, leftBoolean⟩, rightIH ⟨rightTyped, rightBoolean⟩⟩
  | case2 predicate => exact List.forall_mem_singleton.mpr isPredicate

theorem keyCandidate_boolean {count limit : Nat} {conjunct : Expression} {key : Nat × Nat}
    (isKey : keyCandidate count limit conjunct = some key) (typed : WellTyped conjunct) :
    conjunct.resultType.id = .boolean := by
  unfold keyCandidate at isKey
  split at isKey
  · exact typed.1
  · cases isKey

/-- A candidate has been found where there is a key. -/
theorem exists_candidate {candidate : Expression → Option (Nat × Nat)} {position : Nat}
    {found : Option (Nat × Nat × Nat)} {key : Nat × Nat × Nat} {conjuncts : List Expression}
    (ran : findKey candidate position found conjuncts = .ok (some key)) (before : found = none) :
    ∃ conjunct ∈ conjuncts, ∃ key, candidate conjunct = some key := by
  induction conjuncts generalizing position found with
  | nil =>
    rw [before] at ran
    cases pure_eq_ok.mp ran
  | cons conjunct rest hypothesis =>
    cases isKey : candidate conjunct with
    | some key => exact ⟨conjunct, List.mem_cons_self .., key, isKey⟩
    | none =>
      unfold findKey at ran
      rw [isKey] at ran
      obtain ⟨other, member, isOther⟩ := hypothesis ran before
      exact ⟨other, List.mem_cons_of_mem _ member, isOther⟩

/-- Both conditions that conjuncts are split into have every property of the conjuncts that a conjunction
keeps. -/
theorem splitConjuncts_holds {good : Expression → Prop} {rightOnly : Expression → Bool}
    {rebase : Expression → Expression} {allowResidual : Bool} {conjuncts : List Expression}
    (joined : ∀ {first second}, good first → good second →
      good (.binary .and first second (booleanType false)))
    (each : ∀ conjunct ∈ conjuncts, good (rebase conjunct) ∧ good conjunct)
    {prefilter residual : Option Expression} {result : Option Expression × Option Expression}
    (ran : splitConjuncts rightOnly rebase allowResidual prefilter residual conjuncts = .ok result)
    (prefilterGood : ∀ predicate ∈ prefilter.toList, good predicate)
    (residualGood : ∀ predicate ∈ residual.toList, good predicate) :
    (∀ predicate ∈ result.1.toList, good predicate) ∧ ∀ predicate ∈ result.2.toList, good predicate := by
  have extended {sofar : Option Expression} {conjunct : Expression}
      (sofarGood : ∀ predicate ∈ sofar.toList, good predicate) (isGood : good conjunct) :
      ∀ predicate ∈ (andAlso sofar conjunct).toList, good predicate := by
    cases sofar with
    | none => exact List.forall_mem_singleton.mpr isGood
    | some previous =>
      exact List.forall_mem_singleton.mpr (joined (sofarGood previous (List.mem_singleton.mpr rfl)) isGood)
  induction conjuncts generalizing prefilter residual with
  | nil =>
    rw [← pure_eq_ok.mp ran]
    exact ⟨prefilterGood, residualGood⟩
  | cons conjunct rest hypothesis =>
    obtain ⟨first, others⟩ := List.forall_mem_cons.mp each
    unfold splitConjuncts at ran
    split at ran
    · exact hypothesis others ran (extended prefilterGood first.1) residualGood
    · split at ran
      · cases ran
      · exact hypothesis others ran prefilterGood (extended residualGood first.2)

/-- The conditions that an `ON` condition is split into have every property of its conjuncts, moved or not,
that a conjunction keeps. -/
theorem extractJoinStepKeys_hold {good : Expression → Prop} {condition : Expression} {count sourceCount : Nat}
    {joinType : JoinType} {keys : JoinStepKeys}
    (joined : ∀ {first second}, good first → good second →
      good (.binary .and first second (booleanType false)))
    (each : ∀ conjunct ∈ collectConjuncts condition, good (rebaseToSourceSchema count conjunct) ∧ good conjunct)
    (ran : extractJoinStepKeys condition count sourceCount joinType = .ok keys) :
    ∀ predicate ∈ keys.rightPrefilter.toList ++ keys.residualPredicate.toList, good predicate := by
  unfold extractJoinStepKeys at ran
  obtain ⟨found, _, ran⟩ := bind_eq_ok.mp ran
  split at ran
  · cases ran
  · simp only [bind_eq_ok, pure_eq_ok] at ran
    obtain ⟨⟨rightPrefilter, residualPredicate⟩, splitRan, rfl⟩ := ran
    obtain ⟨prefilters, residuals⟩ := splitConjuncts_holds joined
      (fun conjunct member => each conjunct (List.mem_of_mem_eraseIdx member)) splitRan
      (List.forall_mem_nil _) (List.forall_mem_nil _)
    exact List.forall_mem_append.mpr ⟨prefilters, residuals⟩

/-- An `ON` condition that was accepted has a key equality among its conjuncts. -/
theorem exists_keyCandidate {condition : Expression} {count sourceCount : Nat} {joinType : JoinType}
    {keys : JoinStepKeys} (ran : extractJoinStepKeys condition count sourceCount joinType = .ok keys) :
    ∃ conjunct ∈ collectConjuncts condition, ∃ key,
      keyCandidate count (count + sourceCount) conjunct = some key := by
  unfold extractJoinStepKeys at ran
  obtain ⟨found, foundRan, ran⟩ := bind_eq_ok.mp ran
  split at ran
  · cases ran
  · exact exists_candidate foundRan rfl

theorem isPredicate_and {first second : Expression} (firstIs : IsPredicate first)
    (secondIs : IsPredicate second) :
    IsPredicate (.binary .and first second (booleanType false)) :=
  ⟨⟨rfl, ⟨firstIs.2, secondIs.2⟩, firstIs.1, secondIs.1⟩, rfl⟩

/-- What a well-typed `ON` condition is split into are predicates. -/
theorem extractJoinStepKeys_predicates {condition : Expression} {count sourceCount : Nat}
    {joinType : JoinType} {keys : JoinStepKeys} (typed : WellTyped condition)
    (ran : extractJoinStepKeys condition count sourceCount joinType = .ok keys) :
    ∀ predicate ∈ keys.rightPrefilter.toList ++ keys.residualPredicate.toList, IsPredicate predicate := by
  -- A condition of one conjunct is the key itself, and an equality is boolean.
  have boolean : condition.resultType.id = .boolean := by
    obtain ⟨conjunct, member, key, isKey⟩ := exists_keyCandidate ran
    by_cases conjunction : ∃ left right type, condition = .binary .and left right type
    · obtain ⟨left, right, type, rfl⟩ := conjunction
      exact typed.1
    · rw [collectConjuncts.eq_2 condition (fun left right type same => conjunction ⟨left, right, type, same⟩)]
        at member
      obtain rfl := List.mem_singleton.mp member
      exact keyCandidate_boolean isKey typed
  refine extractJoinStepKeys_hold isPredicate_and (fun conjunct member => ?_) ran
  obtain ⟨conjunctTyped, conjunctBoolean⟩ := isPredicate_conjuncts ⟨typed, boolean⟩ conjunct member
  refine ⟨⟨wellTyped_shiftColumns count conjunct conjunctTyped, ?_⟩, conjunctTyped, conjunctBoolean⟩
  exact (congrArg DataType.id (resultType_shiftColumns count conjunct)).trans conjunctBoolean

/-! ## Queries -/

/-- The conditions that a step of a join chain applies. -/
def stepPredicates (step : BoundJoinStep) : List Expression :=
  step.rightPrefilter.toList ++ step.residualPredicate.toList

def joinPredicates (join : Option BoundJoin) : List Expression :=
  join.toList.flatMap (fun join => join.steps.flatMap stepPredicates)

/-- The conditions of a query that keep or drop rows. -/
def filterPredicates (query : BoundQuery) : List Expression :=
  query.condition.toList ++ query.having.toList ++ joinPredicates query.join

/-- All expressions of a bound query. -/
def boundExpressions (query : BoundQuery) : List Expression :=
  query.selectList.map NamedExpression.expr ++ query.groupBy ++ query.orderBy.map SortKey.expr ++
    filterPredicates query

/-- The expressions of a statement that are bound in its scope, each with whether it may call aggregates. -/
def queryExpressions (stmt : AstSelectStatement) (isAggregateQuery : Bool) : List (Bool × SqlExpr) :=
  stmt.selectList.map (fun item => (true, item.expr)) ++
    stmt.condition.toList.map (fun condition => (false, condition)) ++
    stmt.having.toList.map (fun having => (true, having)) ++
    if isAggregateQuery then [] else stmt.orderBy.map (fun item => (true, item.expr))

/-- Every expression of a query is well typed, and every condition that filters rows is boolean. -/
structure QueryWellTyped (query : BoundQuery) : Prop where
  expressions : ∀ expression ∈ boundExpressions query, WellTyped expression
  predicates : ∀ predicate ∈ filterPredicates query, predicate.resultType.id = .boolean

section Clauses

variable {stmt : AstSelectStatement} {scope : Scope} {isAggregateQuery : Bool} {query : BoundQuery}
  {groupReferences : List Reference} {keys : List GroupKey} {holds : Expression → Prop}

/-- A property of whatever is bound of a statement, its columns included, is one of the query's select items
and keys. -/
theorem clauses_hold (columns : ∀ name index type, holds (.column name index type))
    (bound : ∀ {allowAggregates expression result},
      (allowAggregates, expression) ∈ queryExpressions stmt isAggregateQuery →
      bind scope allowAggregates expression = .ok result → holds result)
    (clauses : ClausesBound stmt scope isAggregateQuery query groupReferences keys) :
    (∀ item ∈ query.selectList, holds item.expr) ∧ (∀ key ∈ query.groupBy, holds key) ∧
      (∀ key ∈ query.orderBy, holds key.expr) := by
  have items : ∀ item ∈ query.selectList, holds item.expr := by
    intro item member
    rcases bindSelectList_eq_ok clauses.selectList with ⟨_, _, _, isStarred⟩ | each
    · rw [isStarred] at member
      obtain ⟨⟨field, index⟩, _, rfl⟩ := List.mem_map.mp member
      exact columns field.name index field.type
    · obtain ⟨written, isWritten, itemBound⟩ := exists_of_mem_right each member
      refine bound ?_ itemBound.expr
      simp only [queryExpressions, List.append_assoc]
      exact List.mem_append_left _ (List.mem_map_of_mem isWritten)
  refine ⟨items, fun key member => ?_, fun key member => ?_⟩
  · rw [clauses.groupBy] at member
    obtain ⟨groupKey, isKey, rfl⟩ := List.mem_map.mp member
    obtain ⟨reference, _, keyRan⟩ := exists_of_mem_mapM clauses.keysBound isKey
    rcases bindGroupKey_eq_ok keyRan with ⟨columnRan, _⟩ | ⟨position, item, held, rfl, _, _⟩
    · obtain ⟨name, index, type, isColumn⟩ := bindColumnRef_column columnRan
      rw [isColumn]
      exact columns name index type
    · exact items item (List.mem_of_getElem? held)
  · obtain ⟨item, isWritten, keyRan⟩ := exists_of_mem_mapM clauses.orderBy member
    unfold bindOrderByItem at keyRan
    split at keyRan
    · simp only [bind_eq_ok, pure_eq_ok] at keyRan
      obtain ⟨column, columnRan, rfl⟩ := keyRan
      obtain ⟨index, field, _, rfl⟩ := bindOutputColumn_eq_ok columnRan
      exact columns field.name index field.type
    · rename_i plain
      simp only [bind_eq_ok, pure_eq_ok] at keyRan
      obtain ⟨expression, expressionRan, rfl⟩ := keyRan
      refine bound ?_ expressionRan
      rw [queryExpressions, if_neg plain]
      exact List.mem_append_right _ (List.mem_map_of_mem isWritten)

/-- The conditions of a query are bound in its scope, to booleans. -/
theorem conditions_bound (clauses : ClausesBound stmt scope isAggregateQuery query groupReferences keys) :
    ∀ predicate ∈ query.condition.toList ++ query.having.toList,
      (∃ written ∈ queryExpressions stmt isAggregateQuery, bind scope written.1 written.2 = .ok predicate) ∧
        predicate.resultType.id = .boolean := by
  refine List.forall_mem_append.mpr ⟨fun predicate member => ?_, fun predicate member => ?_⟩
  · rcases optionMapM_eq_ok.mp clauses.condition with ⟨_, absent⟩ | ⟨written, bound, isWritten, isBound, ran⟩
    · rw [absent] at member
      cases member
    · rw [isBound] at member
      obtain rfl := List.mem_singleton.mp member
      obtain ⟨_, boundRan, boolean⟩ := bindCondition_eq_ok ran
      refine ⟨⟨(false, written), ?_, boundRan⟩, boolean⟩
      simp [queryExpressions, isWritten]
  · rcases optionMapM_eq_ok.mp clauses.having with ⟨_, absent⟩ | ⟨written, bound, isWritten, isBound, ran⟩
    · rw [absent] at member
      cases member
    · rw [isBound] at member
      obtain rfl := List.mem_singleton.mp member
      obtain ⟨boundRan, boolean, _⟩ := bindHaving_eq_ok ran
      refine ⟨⟨(true, written), ?_, boundRan⟩, boolean⟩
      simp [queryExpressions, isWritten]

theorem queryWellTyped_of_clauses
    (clauses : ClausesBound stmt scope isAggregateQuery query groupReferences keys)
    (joined : ∀ predicate ∈ joinPredicates query.join, IsPredicate predicate) : QueryWellTyped query := by
  obtain ⟨items, groups, sorts⟩ := clauses_hold (fun _ _ _ => trivial) (fun _ => bind_wellTyped) clauses
  have conditions : ∀ predicate ∈ filterPredicates query, IsPredicate predicate := by
    refine List.forall_mem_append.mpr ⟨fun predicate member => ?_, joined⟩
    obtain ⟨⟨_, _, ran⟩, boolean⟩ := conditions_bound clauses predicate member
    exact ⟨bind_wellTyped ran, boolean⟩
  constructor
  · simp only [boundExpressions, List.forall_mem_append, List.forall_mem_map]
    exact ⟨⟨⟨items, groups⟩, sorts⟩, fun predicate member => (conditions predicate member).1⟩
  · intro predicate member
    exact (conditions predicate member).2

end Clauses

/-- What the conditions of a chain are split into have a property that splitting each of them gives. -/
theorem bindJoinSteps_hold {good : Expression → Prop} {scope : Scope} {count : Nat}
    {written : List (AstJoinStep AstSelectStatement × Schema)} {steps : List BoundJoinStep}
    (splits : ∀ {step condition count sourceCount joinType keys}, step ∈ written →
      bind scope false step.1.condition = .ok condition →
      extractJoinStepKeys condition count sourceCount joinType = .ok keys →
      ∀ predicate ∈ keys.rightPrefilter.toList ++ keys.residualPredicate.toList, good predicate)
    (ran : bindJoinSteps scope count written = .ok steps) :
    ∀ step ∈ steps, ∀ predicate ∈ stepPredicates step, good predicate := by
  induction written generalizing count steps with
  | nil =>
    rw [← pure_eq_ok.mp ran]
    exact List.forall_mem_nil _
  | cons first rest hypothesis =>
    obtain ⟨step, schema⟩ := first
    simp only [bindJoinSteps, bind_eq_ok, pure_eq_ok] at ran
    obtain ⟨condition, conditionRan, keys, keysRan, others, othersRan, rfl⟩ := ran
    refine List.forall_mem_cons.mpr ⟨splits (List.mem_cons_self ..) conditionRan keysRan, ?_⟩
    exact hypothesis (fun member => splits (List.mem_cons_of_mem _ member)) othersRan

theorem joinPredicates_hold {good : Expression → Prop} {stmt : AstSelectStatement} {first : Schema}
    {rest : List Schema} {query : BoundQuery} {clause : AstJoinClause AstSelectStatement}
    {steps : List BoundJoinStep} (bound : JoinBound stmt first rest query clause steps)
    (each : ∀ step ∈ steps, ∀ predicate ∈ stepPredicates step, good predicate) :
    ∀ predicate ∈ joinPredicates query.join, good predicate := by
  rw [bound.join]
  intro predicate member
  simp only [joinPredicates, Option.toList_some, List.flatMap_singleton] at member
  obtain ⟨step, isStep, isPredicate⟩ := List.mem_flatMap.mp member
  exact each step isStep predicate isPredicate

theorem bindJoinSteps_predicates {scope : Scope} {count : Nat}
    {written : List (AstJoinStep AstSelectStatement × Schema)} {steps : List BoundJoinStep}
    (ran : bindJoinSteps scope count written = .ok steps) :
    ∀ step ∈ steps, ∀ predicate ∈ stepPredicates step, IsPredicate predicate :=
  bindJoinSteps_hold (fun _ conditionRan => extractJoinStepKeys_predicates (bind_wellTyped conditionRan)) ran

/-- Whatever binding accepts is well typed: every expression in every scope, an `ON` condition before it
is split included, and every expression and condition of a bound query over one table or over joined
sources. -/
theorem bindQuery_wellTyped :
    (∀ (scope : Scope) (allowAggregates : Bool) (written : SqlExpr) (bound : Expression),
      bind scope allowAggregates written = .ok bound → WellTyped bound) ∧
    (∀ (stmt : AstSelectStatement) (schema : Schema) (query : BoundQuery),
      bindQuery stmt schema = .ok query → QueryWellTyped query) ∧
    ∀ (stmt : AstSelectStatement) (schemas : List Schema) (query : BoundQuery),
      bindJoinQuery stmt schemas = .ok query → QueryWellTyped query := by
  refine ⟨fun scope allowAggregates written bound ran => bind_wellTyped ran,
    fun stmt schema query ran => ?_, fun stmt schemas query ran => ?_⟩
  · obtain ⟨_, _, _, clauses⟩ := bindQuery_eq_ok ran
    refine queryWellTyped_of_clauses clauses ?_
    rw [bindQuery_join ran]
    exact List.forall_mem_nil _
  · obtain ⟨clause, first, rest, steps, _, rfl, bound⟩ := bindJoinQuery_eq_ok ran
    obtain ⟨_, _, clauses⟩ := bound.clausesBound
    apply queryWellTyped_of_clauses clauses
    exact joinPredicates_hold bound (bindJoinSteps_predicates bound.stepsBound)

def mixedCondition : SqlExpr :=
  .between (.columnRef "a" none) (.literal (.integer 1)) (.columnRef "b" none)

/-- `SELECT CASE WHEN a < b THEN a ELSE b END AS c FROM read_parquet('t.parquet') WHERE a BETWEEN 1 AND b
AND b IN (2, NULL)` -/
def mixedStatement : AstSelectStatement where
  selectList := [⟨.caseWhen (.binary .less (.columnRef "a" none) (.columnRef "b" none))
    (.columnRef "a" none) (.otherwise (.columnRef "b" none)), some "c"⟩]
  source := ⟨["t.parquet"], none⟩
  condition := some (.binary .and mixedCondition
    (.inList (.columnRef "b" none) (.cons (.literal (.integer 2)) (.cons (.literal .null) .nil)) false))

def mixedSchema : Schema := [⟨"a", int32Type⟩, ⟨"b", int64Type⟩]

theorem bindQuery_wellTyped_mixed :
    (∃ bound, bind (.table mixedSchema) false mixedCondition = .ok bound ∧ WellTyped bound) ∧
      (∃ query, bindQuery mixedStatement mixedSchema = .ok query ∧ QueryWellTyped query) ∧
      ∃ query, bindJoinQuery outerStatement ([ordersInput, linesInput, linesInput].map JoinInput.schema) =
        .ok query ∧ QueryWellTyped query :=
  ⟨⟨_, rfl, bindQuery_wellTyped.1 (.table mixedSchema) false mixedCondition _ rfl⟩,
    ⟨_, rfl, bindQuery_wellTyped.2.1 mixedStatement mixedSchema _ rfl⟩,
    ⟨_, rfl, bindQuery_wellTyped.2.2 outerStatement
      ([ordersInput, linesInput, linesInput].map JoinInput.schema) _ rfl⟩⟩

end KernelLake.BoundQueryTypes
