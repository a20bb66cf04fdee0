import KernelLake.BoundQueryTypes
import KernelLake.ImplicitCasts

/-!
No query narrows a number with a cast of its own, `CASE` over decimals apart.

Every cast of a bound query is written in its statement or inserted by a step of binding one of its
expressions. The inserted ones between integer and decimal types all widen exactly when in every `CASE` of
the statement each decimal result fits in the type of the first one.
-/

namespace KernelLake.CastWidening

open KernelLake.Types KernelLake.Expressions KernelLake.SqlAst KernelLake.Optimizer KernelLake.Binder
open KernelLake.QueryBinding KernelLake.BindingSteps KernelLake.QueryBindingProofs KernelLake.BoundQueryTypes
open KernelLake.LogicalPlans KernelLake.JoinBinding KernelLake.ImplicitCasts KernelLake.Library.Results
open KernelLake.LogicalPlanner (JoinInput JoinInput.schema)

/-! ## Steps -/

theorem mem_operands {step : Step} {operand : Expression} (isOperand : operand ∈ step.operands)
    {conversion : Conversion} (member : conversion ∈ casts operand) :
    conversion ∈ step.operands.flatMap casts :=
  List.mem_flatMap.mpr ⟨operand, isOperand, member⟩

/-- The casts of a `CASE` are those of its conditions and results and those around its results. -/
theorem casts_castBranches {common : DataType} {branches : List (Expression × Expression)}
    {otherwise : Option Expression} {result : CaseBranches}
    (ran : castBranches common branches otherwise = .ok result) :
    ∀ conversion ∈ branchCasts result,
      conversion ∈ (branches.map Prod.fst ++ caseResults branches otherwise).flatMap casts ∨
        conversion ∈ ((caseResults branches otherwise).zip (branchResults result)).flatMap
          (fun pair => wrappings pair.1 pair.2) := by
  induction branches generalizing result with
  | nil =>
    intro conversion member
    cases otherwise with
    | none =>
      rw [← pure_eq_ok.mp ran] at member
      cases member
    | some expression =>
      simp only [castBranches, bind_eq_ok, pure_eq_ok] at ran
      obtain ⟨cast, castRan, rfl⟩ := ran
      rcases casts_wrapped (castIfNeeded_wrapped castRan .same) conversion member with inner | around
      · exact .inl (List.mem_flatMap.mpr ⟨expression, List.mem_singleton.mpr rfl, inner⟩)
      · exact .inr (List.mem_flatMap.mpr ⟨(expression, cast), List.mem_singleton.mpr rfl, around⟩)
  | cons branch branches hypothesis =>
    simp only [castBranches, bind_eq_ok, pure_eq_ok] at ran
    obtain ⟨cast, castRan, rest, restRan, rfl⟩ := ran
    intro conversion member
    rw [branchCasts, List.append_assoc] at member
    rcases List.mem_append.mp member with inCondition | member
    · exact .inl (List.mem_flatMap.mpr ⟨branch.1, by simp, inCondition⟩)
    · rcases List.mem_append.mp member with inResult | inRest
      · rcases casts_wrapped (castIfNeeded_wrapped castRan .same) conversion inResult with inner | around
        · exact .inl (List.mem_flatMap.mpr ⟨branch.2, by simp [caseResults], inner⟩)
        · exact .inr (List.mem_flatMap.mpr ⟨(branch.2, cast), List.mem_cons_self .., around⟩)
      · rcases hypothesis restRan conversion inRest with inner | around
        · obtain ⟨part, isPart, inPart⟩ := List.mem_flatMap.mp inner
          refine .inl (List.mem_flatMap.mpr ⟨part, ?_, inPart⟩)
          rcases List.mem_append.mp isPart with isCondition | isResult
          · exact List.mem_append_left _ (List.mem_cons_of_mem _ isCondition)
          · exact List.mem_append_right _ (List.mem_cons_of_mem _ isResult)
        · obtain ⟨pair, inZip, isWrapping⟩ := List.mem_flatMap.mp around
          exact .inr (List.mem_flatMap.mpr ⟨pair, List.mem_cons_of_mem _ inZip, isWrapping⟩)

/-- The casts of what a step builds are those of its operands, the ones it inserts and the one it takes
over. -/
theorem casts_run {step : Step} {result : Expression} (ran : step.run = .ok result) :
    ∀ conversion ∈ casts result,
      conversion ∈ step.operands.flatMap casts ∨ conversion ∈ inserted step ∨ conversion ∈ written step := by
  intro conversion member
  have isInserted : conversion ∈ insertedBy step result → conversion ∈ inserted step := by
    intro member
    rwa [inserted, ran, onOk_ok]
  have wrapped {inner outer : Expression} (isOperand : inner ∈ step.operands)
      (wraps : WidelyWrapped inner outer) (member : conversion ∈ casts outer) :
      conversion ∈ step.operands.flatMap casts ∨ conversion ∈ wrappings inner outer :=
    (casts_wrapped wraps.wrapped conversion member).imp_left (mem_operands isOperand)
  cases step with
  | literal value =>
    rw [← Except.ok.inj ran] at member
    cases value <;> cases member
  | null typed =>
    rw [← Except.ok.inj ran] at member
    cases member
  | binary op left right =>
    obtain ⟨left', right', type, rfl, leftWraps, rightWraps⟩ := combineBinary_widens ran
    rcases List.mem_append.mp member with inLeft | inRight
    · rcases wrapped (List.mem_cons_self ..) leftWraps inLeft with inner | around
      · exact .inl inner
      · exact .inr (.inl (isInserted (List.mem_append_left _ around)))
    · rcases wrapped (List.mem_cons_of_mem _ (List.mem_singleton.mpr rfl)) rightWraps inRight with inner | around
      · exact .inl inner
      · exact .inr (.inl (isInserted (List.mem_append_right _ around)))
  | unary op operand =>
    have sameCasts : casts result = casts operand := by
      change combineUnary op operand = .ok result at ran
      unfold combineUnary at ran
      cases op <;> simp only at ran
      all_goals repeat' split at ran
      all_goals first
        | (cases ran; done)
        | (rw [← Except.ok.inj ran]; rfl)
    exact .inl (mem_operands (List.mem_singleton.mpr rfl) (sameCasts ▸ member))
  | notIn items =>
    rw [← Except.ok.inj ran] at member
    have inItems : conversion ∈ casts items := member
    exact .inl (mem_operands (List.mem_singleton.mpr rfl) inItems)
  | between value lower upper =>
    obtain ⟨value', lower', upper', rfl, valueWraps, lowerWraps, upperWraps⟩ := combineBetween_widens ran
    rcases List.mem_append.mp member with member | inUpper
    · rcases List.mem_append.mp member with inValue | inLower
      · rcases wrapped (List.mem_cons_self ..) valueWraps inValue with inner | around
        · exact .inl inner
        · exact .inr (.inl (isInserted (List.mem_append_left _ (List.mem_append_left _ around))))
      · rcases wrapped (List.mem_cons_of_mem _ (List.mem_cons_self ..)) lowerWraps inLower with inner | around
        · exact .inl inner
        · exact .inr (.inl (isInserted (List.mem_append_left _ (List.mem_append_right _ around))))
    · rcases wrapped (List.mem_cons_of_mem _ (List.mem_cons_of_mem _ (List.mem_singleton.mpr rfl))) upperWraps
        inUpper with inner | around
      · exact .inl inner
      · exact .inr (.inl (isInserted (List.mem_append_right _ around)))
  | like value pattern negated =>
    change combineLike value (.literal (.string pattern) : SqlExpr) negated = .ok result at ran
    obtain ⟨_, text, _, rfl⟩ := combineLike_eq_ok ran
    have inValue : conversion ∈ casts value := member
    exact .inl (mem_operands (List.mem_singleton.mpr rfl) inValue)
  | extract part operand =>
    have sameCasts : casts result = casts operand := by
      change combineExtract part operand = .ok result at ran
      unfold combineExtract at ran
      simp only at ran
      split at ran
      · cases ran
      · rw [← Except.ok.inj ran]
        rfl
    exact .inl (mem_operands (List.mem_singleton.mpr rfl) (sameCasts ▸ member))
  | substring operand start length =>
    have sameCasts : casts result = casts operand := by
      change combineSubstring operand start length = .ok result at ran
      unfold combineSubstring at ran
      simp only at ran
      repeat' split at ran
      all_goals first
        | (cases ran; done)
        | (rw [← Except.ok.inj ran]; rfl)
    exact .inl (mem_operands (List.mem_singleton.mpr rfl) (sameCasts ▸ member))
  | cast operand target =>
    rw [← Except.ok.inj ran] at member
    rcases List.mem_cons.mp member with isCast | inner
    · exact .inr (.inr (List.mem_singleton.mpr isCast))
    · exact .inl (mem_operands (List.mem_singleton.mpr rfl) inner)
  | caseWhen first others otherwise =>
    change combineCase first others otherwise = .ok result at ran
    unfold combineCase at ran
    simp only [bind_eq_ok, pure_eq_ok] at ran
    obtain ⟨common, _, branches, branchesRan, rfl⟩ := ran
    rcases casts_castBranches branchesRan conversion member with inner | around
    · exact .inl inner
    · exact .inr (.inl (isInserted around))
  | aggregate function argument =>
    obtain ⟨argument', type, rfl, wraps⟩ := combineAggregate_widens ran
    rcases wrapped (List.mem_singleton.mpr rfl) wraps member with inner | around
    · exact .inl inner
    · exact .inr (.inl (isInserted around))
  | countStar =>
    rw [← Except.ok.inj ran] at member
    cases member

/-- A step's inserted casts widen exactly when it is no `CASE` with a decimal that does not fit. -/
theorem inserted_widens_iff {step : Step} {result : Expression} (ran : step.run = .ok result) :
    (∀ conversion ∈ inserted step, conversion.Widens) ↔ DecimalsFit step := by
  have widens (all : ∀ conversion ∈ insertedBy step result, conversion.Widens) :
      ∀ conversion ∈ inserted step, conversion.Widens := by
    rwa [inserted, ran, onOk_ok]
  cases step with
  | binary op left right =>
    obtain ⟨left', right', type, rfl, leftWraps, rightWraps⟩ := combineBinary_widens ran
    exact iff_of_true (widens (List.forall_mem_append.mpr ⟨leftWraps.widens, rightWraps.widens⟩)) trivial
  | between value lower upper =>
    obtain ⟨value', lower', upper', rfl, valueWraps, lowerWraps, upperWraps⟩ := combineBetween_widens ran
    exact iff_of_true (widens (List.forall_mem_append.mpr
      ⟨List.forall_mem_append.mpr ⟨valueWraps.widens, lowerWraps.widens⟩, upperWraps.widens⟩)) trivial
  | aggregate function argument =>
    obtain ⟨argument', type, rfl, wraps⟩ := combineAggregate_widens ran
    exact iff_of_true (widens wraps.widens) trivial
  | caseWhen first others otherwise => exact combineCase_widens_iff ran
  | _ => exact iff_of_true (widens (List.forall_mem_nil _)) trivial

/-! ## Statements -/

/-- The steps of binding some expressions in a scope, each with whether it may call aggregates. -/
def scopeSteps (scope : Scope) (expressions : List (Bool × SqlExpr)) : List Step :=
  expressions.flatMap (fun expression => bindingSteps (bindColumnRef scope) expression.1 expression.2)

def insertedCasts (scope : Scope) (expressions : List (Bool × SqlExpr)) : List Conversion :=
  (scopeSteps scope expressions).flatMap inserted

def writtenCasts (scope : Scope) (expressions : List (Bool × SqlExpr)) : List Conversion :=
  (scopeSteps scope expressions).flatMap written

/-- The `ON` conditions of a join chain. -/
def onExpressions (clause : AstJoinClause AstSelectStatement) : List (Bool × SqlExpr) :=
  clause.steps.map (fun step => (false, step.condition))

/-- Every expression is bound or is a `*`. -/
def AllBound (scope : Scope) (expressions : List (Bool × SqlExpr)) : Prop :=
  ∀ expression ∈ expressions, isStar expression.2 = true ∨
    ∃ result, bind scope expression.1 expression.2 = .ok result

/-- The casts of an expression are among those written or inserted. -/
def CastsFrom (scope : Scope) (expressions : List (Bool × SqlExpr)) (expression : Expression) : Prop :=
  ∀ conversion ∈ casts expression,
    conversion ∈ insertedCasts scope expressions ∨ conversion ∈ writtenCasts scope expressions

section Scopes

variable {scope : Scope} {expressions : List (Bool × SqlExpr)}

/-- All steps of bound expressions are taken. -/
theorem steps_taken (allBound : AllBound scope expressions) :
    ∀ step ∈ scopeSteps scope expressions, ∃ result, step.run = .ok result := by
  intro step member
  obtain ⟨⟨allowAggregates, expression⟩, isExpression, isStep⟩ := List.mem_flatMap.mp member
  rcases allBound _ isExpression with starred | ⟨result, ran⟩
  · cases expression with
    | star => cases isStep
    | _ => cases starred
  · have account : Accounted (bindColumnRef scope) (fun _ => True) _ _ _ _ :=
      bindWith_accounted allowAggregates expression result ran
    exact (account.taken step isStep).ran

/-- The inserted casts of bound expressions widen exactly when in every `CASE` the decimals fit. -/
theorem insertedCasts_widen_iff (allBound : AllBound scope expressions) :
    (∀ conversion ∈ insertedCasts scope expressions, conversion.Widens) ↔
      ∀ step ∈ scopeSteps scope expressions, DecimalsFit step := by
  simp only [insertedCasts, List.forall_mem_flatMap]
  apply forall₂_congr
  intro step member
  obtain ⟨result, ran⟩ := steps_taken allBound step member
  exact inserted_widens_iff ran

/-- The casts of a bound expression are written in it or inserted by its steps. -/
theorem castsFrom_bind {allowAggregates : Bool} {expression : SqlExpr} {result : Expression}
    (isExpression : (allowAggregates, expression) ∈ expressions)
    (ran : bind scope allowAggregates expression = .ok result) : CastsFrom scope expressions result := by
  have account : Accounted (bindColumnRef scope) (CastsFrom scope expressions) _ _ _ _ :=
    bindWith_accounted allowAggregates expression result ran
  apply account.held
  · intro step isStep built stepRan _ operands conversion member
    have amongSteps : step ∈ scopeSteps scope expressions := List.mem_flatMap.mpr ⟨_, isExpression, isStep⟩
    rcases casts_run stepRan conversion member with inOperand | isInserted | isWritten
    · obtain ⟨operand, isOperand, inner⟩ := List.mem_flatMap.mp inOperand
      exact operands operand isOperand conversion inner
    · exact .inl (List.mem_flatMap.mpr ⟨step, amongSteps, isInserted⟩)
    · exact .inr (List.mem_flatMap.mpr ⟨step, amongSteps, isWritten⟩)
  · intro reference _ column resolved
    obtain ⟨name, index, type, rfl⟩ := bindColumnRef_column resolved
    exact List.forall_mem_nil _

theorem CastsFrom.and {first second : Expression} (firstFrom : CastsFrom scope expressions first)
    (secondFrom : CastsFrom scope expressions second) :
    CastsFrom scope expressions (.binary .and first second (booleanType false)) :=
  List.forall_mem_append.mpr ⟨firstFrom, secondFrom⟩

end Scopes

mutual

/-- Renumbering columns changes no cast. -/
theorem casts_shiftColumns (delta : Nat) (expression : Expression) :
    casts (shiftColumns delta expression) = casts expression := by
  cases expression with
  | binary op left right type =>
    simp only [shiftColumns, casts, casts_shiftColumns delta left, casts_shiftColumns delta right]
  | unary op operand type => simp only [shiftColumns, casts, casts_shiftColumns delta operand]
  | cast operand type =>
    simp only [shiftColumns, casts, casts_shiftColumns delta operand, resultType_shiftColumns]
  | extract part operand type => simp only [shiftColumns, casts, casts_shiftColumns delta operand]
  | substring operand start length type => simp only [shiftColumns, casts, casts_shiftColumns delta operand]
  | between value lower upper =>
    simp only [shiftColumns, casts, casts_shiftColumns delta value, casts_shiftColumns delta lower,
      casts_shiftColumns delta upper]
  | like value pattern negated => simp only [shiftColumns, casts, casts_shiftColumns delta value]
  | caseWhen branches type => simp only [shiftColumns, casts, branchCasts_shiftColumns delta branches]
  | _ => rfl

theorem branchCasts_shiftColumns (delta : Nat) (branches : CaseBranches) :
    branchCasts (shiftBranchColumns delta branches) = branchCasts branches := by
  cases branches with
  | done => rfl
  | otherwise result => simp only [shiftBranchColumns, branchCasts, casts_shiftColumns delta result]
  | «when» condition result rest =>
    simp only [shiftBranchColumns, branchCasts, casts_shiftColumns delta condition,
      casts_shiftColumns delta result, branchCasts_shiftColumns delta rest]

end

theorem casts_conjuncts {predicate : Expression} :
    ∀ conjunct ∈ collectConjuncts predicate, casts conjunct ⊆ casts predicate := by
  fun_induction collectConjuncts predicate with
  | case1 left right type leftIH rightIH =>
    refine List.forall_mem_append.mpr ⟨fun conjunct member => ?_, fun conjunct member => ?_⟩
    · exact List.Subset.trans (leftIH conjunct member) (List.subset_append_left _ _)
    · exact List.Subset.trans (rightIH conjunct member) (List.subset_append_right _ _)
  | case2 predicate => exact List.forall_mem_singleton.mpr (List.Subset.refl _)

/-! ## Queries -/

/-- The casts of a query are those written and inserted in its statement's expressions, and the inserted
ones widen exactly when in every `CASE` the decimals fit. -/
structure CastsAccounted (scope : Scope) (expressions : List (Bool × SqlExpr)) (query : BoundQuery) : Prop where
  accounted : ∀ expression ∈ boundExpressions query, CastsFrom scope expressions expression
  widens : (∀ conversion ∈ insertedCasts scope expressions, conversion.Widens) ↔
    ∀ step ∈ scopeSteps scope expressions, DecimalsFit step

section Clauses

variable {stmt : AstSelectStatement} {scope : Scope} {isAggregateQuery : Bool} {query : BoundQuery}
  {groupReferences : List Reference} {keys : List GroupKey}

theorem allBound_of_clauses
    (clauses : ClausesBound stmt scope isAggregateQuery query groupReferences keys) :
    AllBound scope (queryExpressions stmt isAggregateQuery) := by
  intro written member
  simp only [queryExpressions, List.mem_append] at member
  rcases member with ((isItem | isCondition) | isHaving) | isSort
  · obtain ⟨item, isWritten, rfl⟩ := List.mem_map.mp isItem
    rcases bindSelectList_eq_ok clauses.selectList with ⟨only, single, starred, _⟩ | each
    · rw [single] at isWritten
      rw [List.mem_singleton.mp isWritten]
      exact .inl starred
    · obtain ⟨bound, _, itemBound⟩ := exists_of_mem_left each isWritten
      exact .inr ⟨bound.expr, itemBound.expr⟩
  · obtain ⟨condition, isWritten, rfl⟩ := List.mem_map.mp isCondition
    rcases optionMapM_eq_ok.mp clauses.condition with ⟨absent, _⟩ | ⟨other, bound, isOther, _, ran⟩
    · rw [absent] at isWritten
      cases isWritten
    · rw [isOther, Option.toList_some, List.mem_singleton] at isWritten
      rw [isWritten]
      exact .inr ⟨bound, (bindCondition_eq_ok ran).2.1⟩
  · obtain ⟨having, isWritten, rfl⟩ := List.mem_map.mp isHaving
    rcases optionMapM_eq_ok.mp clauses.having with ⟨absent, _⟩ | ⟨other, bound, isOther, _, ran⟩
    · rw [absent] at isWritten
      cases isWritten
    · rw [isOther, Option.toList_some, List.mem_singleton] at isWritten
      rw [isWritten]
      exact .inr ⟨bound, (bindHaving_eq_ok ran).1⟩
  · split at isSort
    · cases isSort
    · rename_i plain
      obtain ⟨item, isWritten, rfl⟩ := List.mem_map.mp isSort
      obtain ⟨key, _, keyRan⟩ := exists_of_mem_left (mapM_eq_ok.mp clauses.orderBy) isWritten
      rw [bindOrderByItem, if_neg plain] at keyRan
      simp only [bind_eq_ok, pure_eq_ok] at keyRan
      obtain ⟨bound, boundRan, _⟩ := keyRan
      exact .inr ⟨bound, boundRan⟩

/-- The casts of all clauses, with those of the join conditions given. -/
theorem castsFrom_clauses {expressions : List (Bool × SqlExpr)}
    (clauses : ClausesBound stmt scope isAggregateQuery query groupReferences keys)
    (among : queryExpressions stmt isAggregateQuery ⊆ expressions)
    (joined : ∀ predicate ∈ joinPredicates query.join, CastsFrom scope expressions predicate) :
    ∀ expression ∈ boundExpressions query, CastsFrom scope expressions expression := by
  have column (name : String) (index : Nat) (type : DataType) :
      CastsFrom scope expressions (.column name index type) := List.forall_mem_nil _
  obtain ⟨items, groups, sorts⟩ := clauses_hold column
    (fun isWritten ran => castsFrom_bind (among isWritten) ran) clauses
  have conditions : ∀ predicate ∈ filterPredicates query, CastsFrom scope expressions predicate := by
    refine List.forall_mem_append.mpr ⟨fun predicate member => ?_, joined⟩
    obtain ⟨⟨_, isWritten, ran⟩, _⟩ := conditions_bound clauses predicate member
    exact castsFrom_bind (among isWritten) ran
  simp only [boundExpressions, List.forall_mem_append, List.forall_mem_map]
  exact ⟨⟨⟨items, groups⟩, sorts⟩, conditions⟩

end Clauses

theorem extractJoinStepKeys_castsFrom {scope : Scope} {expressions : List (Bool × SqlExpr)}
    {condition : Expression} {count sourceCount : Nat} {joinType : JoinType} {keys : JoinStepKeys}
    (castsOf : CastsFrom scope expressions condition)
    (ran : extractJoinStepKeys condition count sourceCount joinType = .ok keys) :
    ∀ predicate ∈ keys.rightPrefilter.toList ++ keys.residualPredicate.toList,
      CastsFrom scope expressions predicate := by
  refine extractJoinStepKeys_hold CastsFrom.and (fun conjunct member => ?_) ran
  have conjunctFrom : CastsFrom scope expressions conjunct :=
    fun conversion inConjunct => castsOf conversion (casts_conjuncts conjunct member inConjunct)
  refine ⟨?_, conjunctFrom⟩
  rw [CastsFrom, rebaseToSourceSchema, casts_shiftColumns]
  exact conjunctFrom

/-- What the steps of a join chain are bound from: their conditions bind, and the casts of what these are
split into are written or inserted there. -/
theorem bindJoinSteps_casts {scope : Scope} {count : Nat} {expressions : List (Bool × SqlExpr)}
    {written : List (AstJoinStep AstSelectStatement × Schema)} {steps : List BoundJoinStep}
    (ran : bindJoinSteps scope count written = .ok steps)
    (among : ∀ step ∈ written, (false, step.1.condition) ∈ expressions) :
    (∀ step ∈ written, ∃ result, bind scope false step.1.condition = .ok result) ∧
      ∀ step ∈ steps, ∀ predicate ∈ stepPredicates step, CastsFrom scope expressions predicate := by
  refine ⟨?_, bindJoinSteps_hold (fun isWritten conditionRan =>
    extractJoinStepKeys_castsFrom (castsFrom_bind (among _ isWritten) conditionRan)) ran⟩
  clear among
  induction written generalizing count steps with
  | nil => exact List.forall_mem_nil _
  | cons first rest hypothesis =>
    obtain ⟨step, schema⟩ := first
    simp only [bindJoinSteps, bind_eq_ok] at ran
    obtain ⟨condition, conditionRan, _, _, _, othersRan, _⟩ := ran
    exact List.forall_mem_cons.mpr ⟨⟨condition, conditionRan⟩, hypothesis othersRan⟩

/-- The casts that binding inserts between integer and decimal types all widen exactly when in every `CASE`
of the statement each decimal result fits in the type of the first one; all other casts of the query are
written in the statement. -/
theorem bindQuery_castsAccounted (stmt : AstSelectStatement) :
    (∀ (schema : Schema) (query : BoundQuery), bindQuery stmt schema = .ok query →
      CastsAccounted (.table schema) (queryExpressions stmt (isAggregateStatement stmt)) query) ∧
    ∀ (schemas : List Schema) (query : BoundQuery) (clause : AstJoinClause AstSelectStatement),
      stmt.join = some clause →
      bindJoinQuery stmt schemas = .ok query →
      CastsAccounted (.join (joinSources clause schemas))
        (queryExpressions stmt (isAggregateStatement stmt) ++ onExpressions clause) query := by
  constructor
  · intro schema query ran
    obtain ⟨_, _, _, clauses⟩ := bindQuery_eq_ok ran
    refine ⟨castsFrom_clauses clauses (List.Subset.refl _) ?_, insertedCasts_widen_iff (allBound_of_clauses clauses)⟩
    rw [bindQuery_join ran]
    exact List.forall_mem_nil _
  · intro schemas query clause isJoin ran
    obtain ⟨other, first, rest, steps, isOther, rfl, bound⟩ := bindJoinQuery_eq_ok ran
    obtain rfl := Option.some.inj (isJoin.symm.trans isOther)
    obtain ⟨_, _, clauses⟩ := bound.clausesBound
    have among : ∀ step ∈ clause.steps.zip rest, (false, step.1.condition) ∈
        queryExpressions stmt (isAggregateStatement stmt) ++ onExpressions clause := by
      intro step member
      apply List.mem_append_right
      exact List.mem_map_of_mem (List.of_mem_zip member).1
    obtain ⟨conditionsBound, stepCasts⟩ := bindJoinSteps_casts bound.stepsBound among
    constructor
    · apply castsFrom_clauses clauses (List.subset_append_left _ _)
      exact joinPredicates_hold bound stepCasts
    · apply insertedCasts_widen_iff
      refine List.forall_mem_append.mpr ⟨allBound_of_clauses clauses, fun expression member => ?_⟩
      obtain ⟨step, isStep, rfl⟩ := List.mem_map.mp member
      rw [← List.map_fst_zip bound.sameLength.ge] at isStep
      obtain ⟨pair, inZip, rfl⟩ := List.mem_map.mp isStep
      exact .inr (conditionsBound pair inZip)

/-- `SELECT CASE WHEN quantity < 1 THEN price ELSE cost END AS amount FROM read_parquet('t.parquet')` -/
def amountStatement : AstSelectStatement where
  selectList := [⟨.caseWhen (.binary .less (.columnRef "quantity" none) (.literal (.integer 1)))
    (.columnRef "price" none) (.otherwise (.columnRef "cost" none)), some "amount"⟩]
  source := ⟨["t.parquet"], none⟩

def amountSchema : Schema :=
  [⟨"quantity", int32Type⟩, ⟨"price", decimalType 5 2⟩, ⟨"cost", decimalType 10 4⟩]

/-- The cost loses its last two digits. -/
theorem bindQuery_narrows :
    ¬ ∀ (stmt : AstSelectStatement) (schema : Schema) (query : BoundQuery), bindQuery stmt schema = .ok query →
      ∀ conversion ∈ insertedCasts (.table schema) (queryExpressions stmt (isAggregateStatement stmt)),
        conversion.Widens := by
  intro all
  have member : ⟨decimalType 10 4, decimalType 5 2⟩ ∈ insertedCasts (.table amountSchema)
      (queryExpressions amountStatement (isAggregateStatement amountStatement)) := by decide
  have fits := (numbers_subset_iff rfl rfl).mp (all amountStatement amountSchema _ rfl _ member rfl rfl)
  revert fits
  decide

theorem bindQuery_castsAccounted_amount :
    (∃ query, bindQuery amountStatement amountSchema = .ok query ∧
      CastsAccounted (.table amountSchema)
        (queryExpressions amountStatement (isAggregateStatement amountStatement)) query) ∧
      ∃ clause query, outerStatement.join = some clause ∧
        bindJoinQuery outerStatement ([ordersInput, linesInput, linesInput].map JoinInput.schema) = .ok query ∧
        CastsAccounted (.join (joinSources clause ([ordersInput, linesInput, linesInput].map JoinInput.schema)))
          (queryExpressions outerStatement (isAggregateStatement outerStatement) ++ onExpressions clause) query :=
  ⟨⟨_, rfl, (bindQuery_castsAccounted amountStatement).1 amountSchema _ rfl⟩,
    ⟨_, _, rfl, rfl, (bindQuery_castsAccounted outerStatement).2
      ([ordersInput, linesInput, linesInput].map JoinInput.schema) _ _ rfl rfl⟩⟩

end KernelLake.CastWidening
