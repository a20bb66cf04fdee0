import KernelLake.Optimizer

/-!
The rewriter's fuel never runs out.

The rewriter calls itself on plans it has built, so the argument for termination is about its
results: rewriting keeps the number of operators that are not filters, leaves no two adjacent
filters, and turns no other operator into a filter. Every recursive call is then on a plan with
fewer such operators, or with as many and fewer filters on top (`Called`). With enough fuel the
outcome does not depend on it, and `rewritePlan` satisfies the source's recursive equation.
-/

namespace KernelLake.RewriteFuel

open KernelLake.Types KernelLake.Expressions KernelLake.LogicalPlans KernelLake.Simplification
open KernelLake.Optimizer

attribute [local simp] operatorCount longestRun topFilters LogicalPlan.isFilter

/-- The fuel a plan needs when no run of filters is longer than `bound`. -/
def fuelNeeded (bound : Nat) (plan : LogicalPlan) : Nat :=
  operatorCount plan * (bound + 1) + topFilters plan

/-- Fuel that suffices for a plan. -/
def Adequate (fuel : Nat) (plan : LogicalPlan) : Prop :=
  ∃ bound, 2 ≤ bound ∧ longestRun plan ≤ bound ∧ fuelNeeded bound plan < fuel

/-- What rewriting does to the shape of a plan. -/
structure Shape (plan rewritten : LogicalPlan) : Prop where
  sameOperators : operatorCount rewritten = operatorCount plan
  shortRuns : longestRun rewritten ≤ 1
  noNewFilter : plan.isFilter = false → rewritten.isFilter = false

/-- A plan on which the rewriter may call itself while it rewrites another. -/
def Called (plan inner : LogicalPlan) : Prop :=
  ∀ bound, 2 ≤ bound → longestRun plan ≤ bound →
    longestRun inner ≤ bound ∧ fuelNeeded bound inner < fuelNeeded bound plan

theorem topFilters_le_longestRun (plan : LogicalPlan) : topFilters plan ≤ longestRun plan := by
  cases plan <;> simp [topFilters, longestRun]

theorem topFilters_of_not_isFilter {plan : LogicalPlan} (other : plan.isFilter = false) :
    topFilters plan = 0 := by
  cases plan <;> first | rfl | cases other

/-- A plan with fewer operators needs less fuel, whatever filters stand on top of it. -/
theorem fuelNeeded_lt_of_operators {bound : Nat} {inner plan : LogicalPlan}
    (fewer : operatorCount inner < operatorCount plan) (short : topFilters inner ≤ bound) :
    fuelNeeded bound inner < fuelNeeded bound plan := by
  unfold fuelNeeded
  have step : (operatorCount inner + 1) * (bound + 1) ≤ operatorCount plan * (bound + 1) :=
    Nat.mul_le_mul_right _ fewer
  have expand : (operatorCount inner + 1) * (bound + 1) =
      operatorCount inner * (bound + 1) + (bound + 1) := Nat.succ_mul ..
  omega

theorem called_of_fewer {inner plan : LogicalPlan} (runs : longestRun inner ≤ longestRun plan)
    (fewer : operatorCount inner < operatorCount plan) : Called plan inner := by
  intro bound _ within
  have short := topFilters_le_longestRun inner
  exact ⟨by omega, fuelNeeded_lt_of_operators fewer (by omega)⟩

theorem called_child (child : LogicalPlan) (predicate : Expression) :
    Called (.filter child predicate) child := by
  intro bound _ within
  simp only [longestRun] at within
  refine ⟨by omega, ?_⟩
  simp only [fuelNeeded, operatorCount, topFilters]
  omega

/-- Merging leaves one filter on top where there were at least two. -/
theorem called_merged {child grandchild : LogicalPlan} {outer inner : Expression}
    (shape : Shape child (.filter grandchild inner)) (merged : Expression) :
    Called (.filter child outer) (.filter grandchild merged) := by
  obtain ⟨operators, runs, noNewFilter⟩ := shape
  have wasFilter : child.isFilter = true := by
    by_contra other
    exact absurd (noNewFilter (by simpa using other)) (by simp [LogicalPlan.isFilter])
  have oneFilter : topFilters grandchild = 0 ∧ longestRun grandchild ≤ 1 := by
    simp only [longestRun, topFilters] at runs
    omega
  have twoFilters : 1 ≤ topFilters child := by
    cases child <;> simp [LogicalPlan.isFilter, topFilters] at wasFilter ⊢
  intro bound large _
  simp only [operatorCount] at operators
  simp only [longestRun, fuelNeeded, operatorCount, topFilters, operators]
  omega

/-- A filter on one side of a join has fewer operators below it than the filter above the join. -/
theorem called_below {child side : LogicalPlan} {outer : Expression} (short : longestRun side ≤ 1)
    (fewer : operatorCount side < operatorCount child) (conjunct : Expression) :
    Called (.filter child outer) (.filter side conjunct) := by
  intro bound large _
  have top := topFilters_le_longestRun side
  refine ⟨by simp only [longestRun, topFilters]; omega, ?_⟩
  exact fuelNeeded_lt_of_operators fewer (by simp only [topFilters]; omega)

theorem operatorCount_insertLimit (limit : Int) (plan : LogicalPlan) :
    operatorCount (insertLimit limit plan) = operatorCount plan + 1 := by
  induction plan with
  | projection child items hypothesis => simp [insertLimit, operatorCount, hypothesis]
  | _ => rfl

theorem longestRun_insertLimit (limit : Int) (plan : LogicalPlan) :
    longestRun (insertLimit limit plan) = longestRun plan := by
  induction plan with
  | projection child items hypothesis => simp [insertLimit, longestRun, hypothesis]
  | _ => rfl

theorem isFilter_insertLimit (limit : Int) (plan : LogicalPlan) :
    (insertLimit limit plan).isFilter = false := by
  cases plan <;> rfl

theorem filter_shape {child : LogicalPlan} (runs : longestRun child ≤ 1)
    (other : child.isFilter = false) (predicate : Expression) :
    longestRun (.filter child predicate) ≤ 1 := by
  simp only [longestRun, topFilters, topFilters_of_not_isFilter other]
  omega

/-! ## One step -/

variable {rewrite rewrite' : LogicalPlan → LogicalPlan}

/-- Two rewriters agree on a plan, and the result has the right shape. -/
structure Settled (rewrite rewrite' : LogicalPlan → LogicalPlan) (plan : LogicalPlan) : Prop where
  same : rewrite plan = rewrite' plan
  shape : Shape plan (rewrite plan)

theorem pushInto_settles {input : LogicalPlan} (runs : longestRun input ≤ 1)
    (settled : ∀ predicate, Settled rewrite rewrite' (.filter input predicate))
    (predicates : List Expression) :
    pushInto rewrite input predicates = pushInto rewrite' input predicates ∧
      operatorCount (pushInto rewrite input predicates) = operatorCount input ∧
      longestRun (pushInto rewrite input predicates) ≤ 1 := by
  cases predicates with
  | nil => exact ⟨rfl, rfl, runs⟩
  | cons first rest =>
    have done := settled (conjunction first rest)
    exact ⟨done.same, done.shape.sameOperators, done.shape.shortRuns⟩

theorem pushPredicateThroughJoin_settles (left right : LogicalPlan)
    (leftKeyIndex rightKeyIndex : Nat) (joinType : JoinType) (residualPredicate : Option Expression)
    (runs : longestRun left ≤ 1 ∧ longestRun right ≤ 1)
    (settledLeft : ∀ predicate, Settled rewrite rewrite' (.filter left predicate))
    (settledRight : ∀ predicate, Settled rewrite rewrite' (.filter right predicate))
    (predicate : Expression) :
    pushPredicateThroughJoin rewrite left right leftKeyIndex rightKeyIndex joinType residualPredicate
        predicate =
      pushPredicateThroughJoin rewrite' left right leftKeyIndex rightKeyIndex joinType
        residualPredicate predicate ∧
    ∀ pushed, pushPredicateThroughJoin rewrite left right leftKeyIndex rightKeyIndex joinType
        residualPredicate predicate = some pushed →
      operatorCount pushed = operatorCount left + operatorCount right + 1 ∧ longestRun pushed ≤ 1 := by
  have leftDone := pushInto_settles runs.1 settledLeft
  have rightDone := pushInto_settles runs.2 settledRight
  unfold pushPredicateThroughJoin
  simp only [(leftDone _).1, (rightDone _).1]
  refine ⟨trivial, fun pushed ran => ?_⟩
  split at ran
  · cases ran
  obtain rfl := Option.some.inj ran
  rw [← (leftDone _).1, ← (rightDone _).1]
  have leftRuns := (leftDone (placeConjuncts left.width joinType (collectConjuncts predicate)).left).2
  have rightRuns :=
    (rightDone (placeConjuncts left.width joinType (collectConjuncts predicate)).right).2
  cases (placeConjuncts left.width joinType (collectConjuncts predicate)).remaining with
  | nil =>
    simp only [filterAll, operatorCount, longestRun]
    omega
  | cons first rest =>
    simp only [filterAll, operatorCount, longestRun, topFilters]
    omega

theorem rewriteFilter_settles {plan child : LogicalPlan} {outer : Expression}
    (isPlan : plan = .filter child outer)
    (settled : ∀ inner, Called plan inner → Settled rewrite rewrite' inner)
    (shape : Shape child (rewrite child)) (predicate : Expression) :
    rewriteFilter rewrite (rewrite child) predicate =
        rewriteFilter rewrite' (rewrite child) predicate ∧
      operatorCount (rewriteFilter rewrite (rewrite child) predicate) = operatorCount plan ∧
      longestRun (rewriteFilter rewrite (rewrite child) predicate) ≤ 1 := by
  subst isPlan
  obtain ⟨operators, runs, noNewFilter⟩ := shape
  generalize rewrittenEq : rewrite child = rewritten at operators runs noNewFilter ⊢
  unfold rewriteFilter
  split
  · -- A merged filter: one filter on top where the plan had at least two.
    rename_i grandchild inner
    have called : Called (.filter child outer) (.filter grandchild (mergedPredicate predicate inner)) :=
      called_merged ⟨operators, runs, noNewFilter⟩ (mergedPredicate predicate inner)
    have done := settled _ called
    exact ⟨done.same, by rw [done.shape.sameOperators]; exact operators, done.shape.shortRuns⟩
  · rename_i notFilter
    have other : rewritten.isFilter = false := by
      cases rewritten <;> first | rfl | exact absurd rfl (notFilter _ _)
    split
    · exact ⟨rfl, operators, runs⟩
    · exact ⟨rfl, operators, filter_shape runs other predicate⟩
    · rename_i undecided
      cases rewritten with
      | join left right leftKeyIndex rightKeyIndex joinType residualPredicate =>
        simp only [longestRun] at runs
        simp only [operatorCount] at operators
        obtain ⟨same, shapes⟩ := pushPredicateThroughJoin_settles left right leftKeyIndex rightKeyIndex
          joinType residualPredicate ⟨by omega, by omega⟩
          (fun conjunct => settled _ (called_below (by omega) (by omega) conjunct))
          (fun conjunct => settled _ (called_below (by omega) (by omega) conjunct)) predicate
        simp only [← same]
        cases ran : pushPredicateThroughJoin rewrite left right leftKeyIndex rightKeyIndex joinType
            residualPredicate predicate with
        | none =>
          refine ⟨trivial, operators, filter_shape ?_ other predicate⟩
          simpa only [longestRun] using runs
        | some pushed =>
          obtain ⟨count, short⟩ := shapes pushed ran
          exact ⟨trivial, by simpa [operatorCount, count] using operators, short⟩
      | filter grandchild inner => exact absurd rfl (notFilter _ _)
      | _ => exact ⟨rfl, operators, filter_shape runs other predicate⟩

/-- Two rewriters that agree on the plans a step calls them on agree after the step. -/
theorem rewriteStep_settles (plan : LogicalPlan)
    (settled : ∀ inner, Called plan inner → Settled rewrite rewrite' inner) :
    Settled (rewriteStep rewrite) (rewriteStep rewrite') plan := by
  cases plan with
  | scan source => exact ⟨rfl, rfl, by simp [rewriteStep, longestRun], fun _ => rfl⟩
  | join left right leftKeyIndex rightKeyIndex joinType residualPredicate =>
    have leftDone := settled left
      (called_of_fewer (by simp [longestRun]) (by simp only [operatorCount]; omega))
    have rightDone := settled right
      (called_of_fewer (by simp [longestRun]) (by simp only [operatorCount]; omega))
    refine ⟨by simp only [rewriteStep, leftDone.same, rightDone.same], ?_, ?_, fun _ => rfl⟩
    · simp only [rewriteStep, operatorCount, leftDone.shape.sameOperators,
        rightDone.shape.sameOperators]
    · simp only [rewriteStep, longestRun]
      exact max_le leftDone.shape.shortRuns rightDone.shape.shortRuns
  | filter child predicate =>
    have childDone := settled child (called_child child predicate)
    obtain ⟨same, operators, short⟩ := rewriteFilter_settles rfl settled childDone.shape
      (simplifyExpression predicate)
    refine ⟨?_, operators, short, fun other => by cases other⟩
    simp only [rewriteStep]
    rw [same, childDone.same]
  | projection child items =>
    have done := settled child
      (called_of_fewer (by simp [longestRun]) (by simp only [operatorCount]; omega))
    exact ⟨by simp only [rewriteStep, done.same],
      by simp only [rewriteStep, operatorCount, done.shape.sameOperators],
      by simpa only [rewriteStep, longestRun] using done.shape.shortRuns, fun _ => rfl⟩
  | aggregate child groupBy aggregates =>
    have done := settled child
      (called_of_fewer (by simp [longestRun]) (by simp only [operatorCount]; omega))
    exact ⟨by simp only [rewriteStep, done.same],
      by simp only [rewriteStep, operatorCount, done.shape.sameOperators],
      by simpa only [rewriteStep, longestRun] using done.shape.shortRuns, fun _ => rfl⟩
  | sort child keys =>
    have done := settled child
      (called_of_fewer (by simp [longestRun]) (by simp only [operatorCount]; omega))
    exact ⟨by simp only [rewriteStep, done.same],
      by simp only [rewriteStep, operatorCount, done.shape.sameOperators],
      by simpa only [rewriteStep, longestRun] using done.shape.shortRuns, fun _ => rfl⟩
  | limit child limit =>
    have done := settled child
      (called_of_fewer (by simp [longestRun]) (by simp only [operatorCount]; omega))
    refine ⟨by simp only [rewriteStep, done.same], ?_, ?_, fun _ => isFilter_insertLimit ..⟩
    · simp only [rewriteStep, operatorCount_insertLimit, operatorCount, done.shape.sameOperators]
    · simpa only [rewriteStep, longestRun_insertLimit] using done.shape.shortRuns

/-! ## Whole runs -/

theorem adequate_of_called {fuel : Nat} {plan inner : LogicalPlan} (enough : Adequate (fuel + 1) plan)
    (called : Called plan inner) : Adequate fuel inner := by
  obtain ⟨bound, large, within, needed⟩ := enough
  obtain ⟨short, less⟩ := called bound large within
  exact ⟨bound, large, short, by omega⟩

/-- Fuel that suffices gives one outcome, and one of the right shape. -/
theorem rewriteWith_settles (fuel fuel' : Nat) (plan : LogicalPlan) (enough : Adequate fuel plan)
    (enough' : Adequate fuel' plan) : Settled (rewriteWith fuel) (rewriteWith fuel') plan := by
  induction fuel generalizing fuel' plan with
  | zero =>
    obtain ⟨_, _, _, impossible⟩ := enough
    omega
  | succ fuel hypothesis =>
    cases fuel' with
    | zero =>
      obtain ⟨_, _, _, impossible⟩ := enough'
      omega
    | succ fuel' =>
      exact rewriteStep_settles plan (fun inner called =>
        hypothesis fuel' inner (adequate_of_called enough called) (adequate_of_called enough' called))

theorem adequate_rewriteFuel (plan : LogicalPlan) : Adequate (rewriteFuel plan) plan := by
  refine ⟨longestRun plan + 2, by omega, by omega, ?_⟩
  have top := topFilters_le_longestRun plan
  have expand : rewriteFuel plan =
      operatorCount plan * (longestRun plan + 2 + 1) + (longestRun plan + 3) := Nat.succ_mul ..
  rw [expand, fuelNeeded]
  omega

theorem rewritePlan_settles (plan : LogicalPlan) :
    Settled rewritePlan (rewriteStep rewritePlan) plan := by
  have enough := adequate_rewriteFuel plan
  cases fuelEq : rewriteFuel plan with
  | zero =>
    obtain ⟨_, _, _, impossible⟩ := enough
    omega
  | succ fuel =>
    rw [fuelEq] at enough
    have inside (inner : LogicalPlan) (called : Called plan inner) :
        Settled (rewriteWith fuel) rewritePlan inner := by
      have done := rewriteWith_settles fuel (rewriteFuel inner) inner
        (adequate_of_called enough called) (adequate_rewriteFuel inner)
      exact ⟨done.same, done.shape⟩
    have step := rewriteStep_settles plan inside
    have unfolded : rewritePlan plan = rewriteStep (rewriteWith fuel) plan := by
      rw [rewritePlan, fuelEq]
      rfl
    exact ⟨unfolded.trans step.same, unfolded ▸ step.shape⟩

/-- The rewriter satisfies its recursive equation: every call inside it is again a full rewrite. -/
theorem rewritePlan_eq (plan : LogicalPlan) : rewritePlan plan = rewriteStep rewritePlan plan :=
  (rewritePlan_settles plan).same

/-- Rewriting keeps the operators that are not filters and leaves no two adjacent filters. -/
theorem rewritePlan_shape (plan : LogicalPlan) : Shape plan (rewritePlan plan) :=
  (rewritePlan_settles plan).shape

end KernelLake.RewriteFuel
