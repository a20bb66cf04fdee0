import KernelLake.RequiredColumns
import KernelLake.RewriteProofs

/-!
Rewriting keeps references in range.

Simplification never adds a column or an aggregate to an expression, and every rule that moves a
predicate moves it to a plan that has the columns it refers to.
-/

namespace KernelLake.ReferenceProofs

open KernelLake.Types KernelLake.Expressions KernelLake.LogicalPlans KernelLake.Simplification
open KernelLake.SimplificationProofs KernelLake.Optimizer KernelLake.PhysicalPlanner
open KernelLake.ColumnProofs KernelLake.RewriteProofs KernelLake.RequiredColumns
open KernelLake.AggregatePlanning (hasAggregate branchesHaveAggregate)

/-! ## Simplification -/

/-- An expression with no more columns and no new aggregate. -/
structure Narrower (result original : Expression) : Prop where
  columns : collectColumns result ⊆ collectColumns original
  plain : hasAggregate original = false → hasAggregate result = false

structure NarrowerBranches (result original : CaseBranches) : Prop where
  columns : collectBranchColumns result ⊆ collectBranchColumns original
  plain : branchesHaveAggregate original = false → branchesHaveAggregate result = false

theorem narrower_literal (value : LiteralStorage) (type : DataType) (original : Expression) :
    Narrower (.literal value type) original :=
  ⟨List.nil_subset _, fun _ => rfl⟩

theorem Narrower.trans {first second third : Expression} (lower : Narrower first second)
    (upper : Narrower second third) : Narrower first third :=
  ⟨List.Subset.trans lower.columns upper.columns, fun plain => lower.plain (upper.plain plain)⟩

theorem narrower_left (op : BinaryOperator) (left right : Expression) (type : DataType) :
    Narrower left (.binary op left right type) where
  columns := List.subset_append_left _ _
  plain plain := (Bool.or_eq_false_iff.mp plain).1

theorem narrower_right (op : BinaryOperator) (left right : Expression) (type : DataType) :
    Narrower right (.binary op left right type) where
  columns := List.subset_append_right _ _
  plain plain := (Bool.or_eq_false_iff.mp plain).2

theorem narrower_binary {left left' right right' : Expression} (op : BinaryOperator) (type : DataType)
    (leftNarrower : Narrower left' left) (rightNarrower : Narrower right' right) :
    Narrower (.binary op left' right' type) (.binary op left right type) where
  columns := List.append_subset.mpr
    ⟨List.subset_append_of_subset_left _ leftNarrower.columns,
      List.subset_append_of_subset_right _ rightNarrower.columns⟩
  plain plain := by
    obtain ⟨leftPlain, rightPlain⟩ := Bool.or_eq_false_iff.mp plain
    exact Bool.or_eq_false_iff.mpr ⟨leftNarrower.plain leftPlain, rightNarrower.plain rightPlain⟩

theorem narrower_simplifyUnary (op : UnaryOperator) (operand : Expression) (type : DataType) :
    Narrower (simplifyUnary op operand type) (.unary op operand type) := by
  rcases simplifyUnary_cases op operand type with ⟨value, same⟩ | ⟨inner, innerType, shape, same⟩ | same
  · rw [same]
    exact narrower_literal ..
  · rw [same, shape]
    exact ⟨List.Subset.refl _, id⟩
  · rw [same]
    exact ⟨List.Subset.refl _, id⟩

theorem narrower_simplifyBinary (op : BinaryOperator) (left right : Expression) (type : DataType) :
    Narrower (simplifyBinary op left right type) (.binary op left right type) := by
  rcases simplifyBinary_cases op left right type with same | same | ⟨value, literalType, same⟩ | same
  · rw [same]
    exact narrower_left ..
  · rw [same]
    exact narrower_right ..
  · rw [same]
    exact narrower_literal ..
  · rw [same]
    exact ⟨List.Subset.refl _, id⟩

theorem narrower_simplifyBetween (value lower upper : Expression) :
    Narrower (simplifyBetween value lower upper) (.between value lower upper) := by
  unfold simplifyBetween
  refine (narrower_simplifyBinary ..).trans
    ((narrower_binary _ _ (narrower_simplifyBinary ..) (narrower_simplifyBinary ..)).trans ⟨?_, ?_⟩)
  · simp [collectColumns]
  · intro plain
    simp only [hasAggregate, Bool.or_eq_false_iff] at plain ⊢
    exact ⟨plain.1, plain.1.1, plain.2⟩

mutual

theorem narrower_simplifyExpression : (expression : Expression) →
    Narrower (simplifyExpression expression) expression
  | .column .. => ⟨List.Subset.refl _, id⟩
  | .literal .. => ⟨List.Subset.refl _, id⟩
  | .binary op left right type =>
    (narrower_simplifyBinary ..).trans
      (narrower_binary op type (narrower_simplifyExpression left) (narrower_simplifyExpression right))
  | .unary op operand type =>
    have inner := narrower_simplifyExpression operand
    (narrower_simplifyUnary ..).trans ⟨inner.columns, inner.plain⟩
  | .cast operand _ =>
    have inner := narrower_simplifyExpression operand
    ⟨inner.columns, inner.plain⟩
  | .extract _ operand _ =>
    have inner := narrower_simplifyExpression operand
    ⟨inner.columns, inner.plain⟩
  | .substring operand _ _ _ =>
    have inner := narrower_simplifyExpression operand
    ⟨inner.columns, inner.plain⟩
  | .between value lower upper => by
    have valueNarrower := narrower_simplifyExpression value
    have lowerNarrower := narrower_simplifyExpression lower
    have upperNarrower := narrower_simplifyExpression upper
    refine (narrower_simplifyBetween ..).trans ⟨?_, fun plain => ?_⟩
    · simp only [collectColumns]
      exact List.append_subset.mpr ⟨List.subset_append_of_subset_left _ (List.append_subset.mpr
          ⟨List.subset_append_of_subset_left _ valueNarrower.columns,
            List.subset_append_of_subset_right _ lowerNarrower.columns⟩),
        List.subset_append_of_subset_right _ upperNarrower.columns⟩
    · simp only [hasAggregate, Bool.or_eq_false_iff] at plain ⊢
      exact ⟨⟨valueNarrower.plain plain.1.1, lowerNarrower.plain plain.1.2⟩, upperNarrower.plain plain.2⟩
  | .like value _ _ =>
    have inner := narrower_simplifyExpression value
    ⟨inner.columns, inner.plain⟩
  | .caseWhen branches _ =>
    have inner := narrower_simplifyBranches branches
    ⟨inner.columns, inner.plain⟩
  | .aggregate _ argument _ =>
    have inner := narrower_simplifyExpression argument
    ⟨inner.columns, fun plain => by cases plain⟩
  | .countStar _ => ⟨List.Subset.refl _, id⟩

theorem narrower_simplifyBranches : (branches : CaseBranches) →
    NarrowerBranches (simplifyBranches branches) branches
  | .done => ⟨List.Subset.refl _, id⟩
  | .otherwise result =>
    have inner := narrower_simplifyExpression result
    ⟨inner.columns, inner.plain⟩
  | .when condition result rest => by
    have conditionNarrower := narrower_simplifyExpression condition
    have resultNarrower := narrower_simplifyExpression result
    have restNarrower := narrower_simplifyBranches rest
    refine ⟨?_, fun plain => ?_⟩
    · simp only [simplifyBranches, collectBranchColumns]
      exact List.append_subset.mpr ⟨List.subset_append_of_subset_left _ (List.append_subset.mpr
          ⟨List.subset_append_of_subset_left _ conditionNarrower.columns,
            List.subset_append_of_subset_right _ resultNarrower.columns⟩),
        List.subset_append_of_subset_right _ restNarrower.columns⟩
    · simp only [simplifyBranches, branchesHaveAggregate, Bool.or_eq_false_iff] at plain ⊢
      exact ⟨⟨conditionNarrower.plain plain.1.1, resultNarrower.plain plain.1.2⟩,
        restNarrower.plain plain.2⟩

end

theorem collectItemColumns_simplifyItems (items : List NamedExpression) :
    collectItemColumns (simplifyItems items) ⊆ collectItemColumns items := by
  intro index member
  simp only [collectItemColumns, simplifyItems, List.mem_flatMap, List.mem_map] at member ⊢
  obtain ⟨_, ⟨item, inItems, rfl⟩, inExpr⟩ := member
  exact ⟨item, inItems, (narrower_simplifyExpression item.expr).columns inExpr⟩

theorem collectKeyColumns_simplifyKeys (keys : List SortKey) :
    collectKeyColumns (simplifyKeys keys) ⊆ collectKeyColumns keys := by
  intro index member
  simp only [collectKeyColumns, simplifyKeys, List.mem_flatMap, List.mem_map] at member ⊢
  obtain ⟨_, ⟨key, inKeys, rfl⟩, inExpr⟩ := member
  exact ⟨key, inKeys, (narrower_simplifyExpression key.expr).columns inExpr⟩

theorem plainWithin_of_narrower {width : Nat} {result original : Expression}
    (narrower : Narrower result original) (within : plainWithin width original) :
    plainWithin width result :=
  ⟨narrower.plain within.1, fun index member => within.2 index (narrower.columns member)⟩

/-! ## Conjunctions -/

theorem plainWithin_and {width : Nat} {left right : Expression} {type : DataType} :
    plainWithin width (.binary .and left right type) ↔ plainWithin width left ∧ plainWithin width right := by
  simp only [plainWithin, hasAggregate, Bool.or_eq_false_iff, collectColumns, refersWithin_append]
  tauto

theorem plainWithin_conjunction {width : Nat} {first : Expression} {rest : List Expression}
    (each : ∀ conjunct ∈ first :: rest, plainWithin width conjunct) :
    plainWithin width (conjunction first rest) := by
  unfold conjunction
  induction rest generalizing first with
  | nil => exact each first (List.mem_cons_self ..)
  | cons next rest hypothesis =>
    rw [List.foldl_cons]
    refine hypothesis (List.forall_mem_cons.mpr ⟨plainWithin_and.mpr ⟨?_, ?_⟩, fun conjunct member => ?_⟩)
    · exact each first (List.mem_cons_self ..)
    · exact each next (List.mem_cons_of_mem _ (List.mem_cons_self ..))
    · exact each conjunct (List.mem_cons_of_mem _ (List.mem_cons_of_mem _ member))

theorem plainWithin_conjuncts {width : Nat} {predicate : Expression} (within : plainWithin width predicate) :
    ∀ conjunct ∈ collectConjuncts predicate, plainWithin width conjunct := by
  fun_induction collectConjuncts predicate with
  | case1 left right type leftHypothesis rightHypothesis =>
    obtain ⟨leftWithin, rightWithin⟩ := plainWithin_and.mp within
    exact List.forall_mem_append.mpr ⟨leftHypothesis leftWithin, rightHypothesis rightWithin⟩
  | case2 predicate => exact List.forall_mem_singleton.mpr within

mutual

theorem shiftColumns_plain (delta : Nat) : (expression : Expression) → hasAggregate expression = false →
    collectColumns (shiftColumns delta expression) =
        (collectColumns expression).map (fun index => index - delta) ∧
      hasAggregate (shiftColumns delta expression) = false
  | .column .., _ => ⟨rfl, rfl⟩
  | .literal .., _ => ⟨rfl, rfl⟩
  | .binary _ left right _, plain => by
    obtain ⟨leftPlain, rightPlain⟩ := Bool.or_eq_false_iff.mp plain
    have leftShifted := shiftColumns_plain delta left leftPlain
    have rightShifted := shiftColumns_plain delta right rightPlain
    simp [shiftColumns, collectColumns, hasAggregate, leftShifted, rightShifted]
  | .unary _ operand _, plain => shiftColumns_plain delta operand plain
  | .cast operand _, plain => shiftColumns_plain delta operand plain
  | .extract _ operand _, plain => shiftColumns_plain delta operand plain
  | .substring operand _ _ _, plain => shiftColumns_plain delta operand plain
  | .between value lower upper, plain => by
    simp only [hasAggregate, Bool.or_eq_false_iff] at plain
    have valueShifted := shiftColumns_plain delta value plain.1.1
    have lowerShifted := shiftColumns_plain delta lower plain.1.2
    have upperShifted := shiftColumns_plain delta upper plain.2
    simp [shiftColumns, collectColumns, hasAggregate, valueShifted, lowerShifted, upperShifted]
  | .like value _ _, plain => shiftColumns_plain delta value plain
  | .caseWhen branches _, plain => shiftBranchColumns_plain delta branches plain
  | .aggregate .., plain => by cases plain
  | .countStar _, plain => by cases plain

theorem shiftBranchColumns_plain (delta : Nat) : (branches : CaseBranches) →
    branchesHaveAggregate branches = false →
    collectBranchColumns (shiftBranchColumns delta branches) =
        (collectBranchColumns branches).map (fun index => index - delta) ∧
      branchesHaveAggregate (shiftBranchColumns delta branches) = false
  | .done, _ => ⟨rfl, rfl⟩
  | .otherwise result, plain => shiftColumns_plain delta result plain
  | .when condition result rest, plain => by
    simp only [branchesHaveAggregate, Bool.or_eq_false_iff] at plain
    have conditionShifted := shiftColumns_plain delta condition plain.1.1
    have resultShifted := shiftColumns_plain delta result plain.1.2
    have restShifted := shiftBranchColumns_plain delta rest plain.2
    simp [shiftBranchColumns, collectBranchColumns, branchesHaveAggregate, conditionShifted, resultShifted,
      restShifted]

end

/-- A conjunct over the right columns of a join, moved there. -/
theorem plainWithin_shiftColumns {leftCount rightCount : Nat} {conjunct : Expression}
    (within : plainWithin (leftCount + rightCount) conjunct)
    (beyond : ∀ index ∈ collectColumns conjunct, leftCount ≤ index) :
    plainWithin rightCount (shiftColumns leftCount conjunct) := by
  obtain ⟨columns, plain⟩ := shiftColumns_plain leftCount conjunct within.1
  refine ⟨plain, fun index member => ?_⟩
  rw [columns] at member
  obtain ⟨original, inConjunct, rfl⟩ := List.mem_map.mp member
  have bound := within.2 original inConjunct
  have reached := beyond original inConjunct
  omega

/-! ## Rewriting -/

/-- A rewriter that keeps widths and references in range, and under which no plan comes to have its
operators' references renumbered. -/
structure KeepsReferences (rewrite : LogicalPlan → LogicalPlan) : Prop where
  sameWidth : ∀ plan, (rewrite plan).width = plan.width
  aggregates : ∀ plan, plan.isAggregate = true → (rewrite plan).isAggregate = true
  references : ∀ plan, referencesScanSchema (rewrite plan) = true → referencesScanSchema plan = true
  bound : ∀ plan, inRange plan → inRange (rewrite plan)

variable {rewrite : LogicalPlan → LogicalPlan}

theorem inRange_filter {child : LogicalPlan} {predicate : Expression} (childBound : inRange child)
    (within : plainWithin child.width predicate) : inRange (.filter child predicate) :=
  ⟨childBound, fun _ => within⟩

theorem inRange_pushInto (keeps : KeepsReferences rewrite) {input : LogicalPlan} (inputBound : inRange input)
    {conjuncts : List Expression} (each : ∀ conjunct ∈ conjuncts, plainWithin input.width conjunct) :
    inRange (pushInto rewrite input conjuncts) ∧ (pushInto rewrite input conjuncts).width = input.width := by
  cases conjuncts with
  | nil => exact ⟨inputBound, rfl⟩
  | cons first rest =>
    exact ⟨keeps.bound _ (inRange_filter inputBound (plainWithin_conjunction each)), keeps.sameWidth _⟩

theorem inRange_filterAll {child : LogicalPlan} (childBound : inRange child) {conjuncts : List Expression}
    (each : ∀ conjunct ∈ conjuncts, plainWithin child.width conjunct) :
    inRange (filterAll child conjuncts) := by
  cases conjuncts with
  | nil => exact childBound
  | cons first rest => exact inRange_filter childBound (plainWithin_conjunction each)

theorem inRange_pushPredicateThroughJoin (keeps : KeepsReferences rewrite) {left right : LogicalPlan}
    {leftKeyIndex rightKeyIndex : Nat} {joinType : JoinType} {residualPredicate : Option Expression}
    {predicate : Expression} {pushed : LogicalPlan}
    (joinBound : inRange (.join left right leftKeyIndex rightKeyIndex joinType residualPredicate))
    (within : plainWithin
      (LogicalPlan.join left right leftKeyIndex rightKeyIndex joinType residualPredicate).width predicate)
    (ran : pushPredicateThroughJoin rewrite left right leftKeyIndex rightKeyIndex joinType
      residualPredicate predicate = some pushed) : inRange pushed := by
  unfold pushPredicateThroughJoin at ran
  simp only at ran
  split at ran
  · cases ran
  obtain rfl := Option.some.inj ran
  have each := plainWithin_conjuncts within
  obtain ⟨leftBound, rightBound, leftKey, rightKey, residual⟩ := joinBound
  have leftEach : ∀ conjunct ∈ (placeConjuncts left.width joinType (collectConjuncts predicate)).left,
      plainWithin left.width conjunct := by
    intro conjunct member
    obtain ⟨inConjuncts, toLeft⟩ := List.mem_filter.mp member
    simp only [onlyLeft, Bool.and_eq_true, List.all_eq_true, decide_eq_true_eq] at toLeft
    exact ⟨(each conjunct inConjuncts).1, toLeft.2⟩
  have rightEach : ∀ conjunct ∈ (placeConjuncts left.width joinType (collectConjuncts predicate)).right,
      plainWithin right.width conjunct := by
    intro conjunct member
    obtain ⟨original, placed, rfl⟩ := List.mem_map.mp member
    obtain ⟨inConjuncts, toRight⟩ := List.mem_filter.mp placed
    simp only [onlyRight, Bool.and_eq_true, List.all_eq_true, decide_eq_true_eq] at toRight
    refine plainWithin_shiftColumns ⟨(each original inConjuncts).1, fun index inColumns => ?_⟩ toRight.2.1.2
    exact ((each original inConjuncts).2 index inColumns).trans_le (width_join_le ..)
  obtain ⟨leftPushed, leftWidth⟩ := inRange_pushInto keeps leftBound leftEach
  obtain ⟨rightPushed, rightWidth⟩ := inRange_pushInto keeps rightBound rightEach
  refine inRange_filterAll ?_ (fun conjunct member => ?_)
  · rw [inRange, leftWidth, rightWidth]
    exact ⟨leftPushed, rightPushed, leftKey, rightKey, residual⟩
  · have kept := each conjunct (List.mem_filter.mp member).1
    simp only [LogicalPlan.width, LogicalPlan.outputSchema, joinSchema_length] at leftWidth rightWidth kept ⊢
    rwa [leftWidth, rightWidth]

theorem inRange_rewriteFilter (keeps : KeepsReferences rewrite) {child : LogicalPlan} {predicate : Expression}
    (childBound : inRange child)
    (within : referencesScanSchema child = true → plainWithin child.width predicate) :
    inRange (rewriteFilter rewrite child predicate) := by
  unfold rewriteFilter
  split
  · rename_i grandchild inner
    refine keeps.bound _ ⟨childBound.1, fun references => ?_⟩
    have notAggregate : referencesScanSchema (.filter grandchild inner) = true := by
      cases grandchild <;> simp_all [referencesScanSchema, LogicalPlan.isAggregate]
    refine plainWithin_of_narrower (narrower_simplifyExpression _) (plainWithin_and.mpr ⟨?_, ?_⟩)
    · exact within notAggregate
    · exact childBound.2 references
  · split
    · exact childBound
    · exact ⟨childBound, within⟩
    · split
      · rename_i left right leftKeyIndex rightKeyIndex joinType residualPredicate _
        cases ran : pushPredicateThroughJoin rewrite left right leftKeyIndex rightKeyIndex joinType
            residualPredicate predicate with
        | none => exact ⟨childBound, within⟩
        | some pushed => exact inRange_pushPredicateThroughJoin keeps childBound (within rfl) ran
      · exact ⟨childBound, within⟩

theorem referencesScanSchema_insertLimit (limit : Int) (plan : LogicalPlan) :
    referencesScanSchema (insertLimit limit plan) = referencesScanSchema plan := by
  cases plan <;> rfl

theorem inRange_insertLimit (limit : Int) {plan : LogicalPlan} (bound : inRange plan) :
    inRange (insertLimit limit plan) := by
  induction plan with
  | projection child items hypothesis =>
    refine ⟨hypothesis bound.1, fun references => ?_⟩
    rw [referencesScanSchema_insertLimit] at references
    rw [width_insertLimit]
    exact bound.2 references
  | _ => exact bound

theorem isAggregate_filter (rewrite : LogicalPlan → LogicalPlan) {child : LogicalPlan}
    (isAggregate : child.isAggregate = true) (predicate : Expression) :
    referencesScanSchema (rewriteFilter rewrite child predicate) = false := by
  cases child with
  | aggregate grandchild groupBy aggregates =>
    simp only [rewriteFilter]
    split <;> rfl
  | _ => cases isAggregate

theorem references_rewriteStep (keeps : KeepsReferences rewrite) (plan : LogicalPlan)
    (references : referencesScanSchema (rewriteStep rewrite plan) = true) :
    referencesScanSchema plan = true := by
  cases plan with
  | scan source => rfl
  | join left right leftKeyIndex rightKeyIndex joinType residualPredicate => rfl
  | filter child predicate =>
    cases isAggregate : child.isAggregate with
    | true =>
      rw [rewriteStep, isAggregate_filter rewrite (keeps.aggregates child isAggregate)] at references
      cases references
    | false => simp [referencesScanSchema, isAggregate]
  | projection child items => cases references
  | aggregate child groupBy aggregates => cases references
  | sort child keys => exact keeps.references child references
  | limit child limit =>
    rw [rewriteStep, referencesScanSchema_insertLimit] at references
    exact keeps.references child references

theorem refersWithin_of_subset {width : Nat} {indices wider : List Nat} (included : indices ⊆ wider)
    (within : refersWithin width wider) : refersWithin width indices :=
  fun index member => within index (included member)

theorem inRange_rewriteStep (keeps : KeepsReferences rewrite) (plan : LogicalPlan)
    (planBound : inRange plan) : inRange (rewriteStep rewrite plan) := by
  cases plan with
  | scan source => trivial
  | join left right leftKeyIndex rightKeyIndex joinType residualPredicate =>
    obtain ⟨leftBound, rightBound, keysAndResidual⟩ := planBound
    rw [rewriteStep, inRange, keeps.sameWidth, keeps.sameWidth]
    exact ⟨keeps.bound left leftBound, keeps.bound right rightBound, keysAndResidual⟩
  | filter child predicate =>
    refine inRange_rewriteFilter keeps (keeps.bound child planBound.1) (fun references => ?_)
    rw [keeps.sameWidth]
    exact plainWithin_of_narrower (narrower_simplifyExpression predicate)
      (planBound.2 (keeps.references child references))
  | projection child items =>
    refine ⟨keeps.bound child planBound.1, fun references => ?_⟩
    rw [keeps.sameWidth]
    exact refersWithin_of_subset (collectItemColumns_simplifyItems items)
      (planBound.2 (keeps.references child references))
  | aggregate child groupBy aggregates =>
    refine ⟨keeps.bound child planBound.1, fun references => ?_⟩
    rw [keeps.sameWidth]
    obtain ⟨groupWithin, aggregateWithin⟩ :=
      refersWithin_append.mp (planBound.2 (keeps.references child references))
    exact refersWithin_append.mpr
      ⟨refersWithin_of_subset (collectItemColumns_simplifyItems groupBy) groupWithin,
        refersWithin_of_subset (collectItemColumns_simplifyItems aggregates) aggregateWithin⟩
  | sort child keys =>
    refine ⟨keeps.bound child planBound.1, fun references => ?_⟩
    rw [keeps.sameWidth]
    exact refersWithin_of_subset (collectKeyColumns_simplifyKeys keys)
      (planBound.2 (keeps.references child references))
  | limit child limit => exact inRange_insertLimit limit (keeps.bound child planBound)

theorem rewriteWith_keeps (fuel : Nat) : KeepsReferences (rewriteWith fuel) := by
  induction fuel with
  | zero => exact ⟨fun _ => rfl, fun _ => id, fun _ => id, fun _ => id⟩
  | succ fuel hypothesis =>
    refine ⟨(rewriteWith_preserves (.ofContents []) (fuel + 1)).sameWidth, fun plan isAggregate => ?_,
      references_rewriteStep hypothesis, inRange_rewriteStep hypothesis⟩
    cases plan with
    | aggregate child groupBy aggregates => rfl
    | _ => cases isAggregate

/-- A rewritten plan refers to columns that exist, if the original does. -/
theorem inRange_rewritePlan {plan : LogicalPlan} (bound : inRange plan) : inRange (rewritePlan plan) :=
  (rewriteWith_keeps _).bound plan bound

end KernelLake.ReferenceProofs
