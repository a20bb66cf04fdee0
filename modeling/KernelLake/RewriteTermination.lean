import KernelLake.RewriteFuel

/-!
The rewriter's recursion is well-founded.

`invocations` lists the plans one call of the rewriter calls itself on, given what those calls return:
the child first, and then, depending on what became of the child, one merged filter or the filters that
go below a join. A call returns when every call it makes returns; `Returns` says so without fuel. The
measure is the number of operators other than filters, which rewriting keeps, and then the number of
filters on top.
-/

namespace KernelLake.RewriteTermination

open KernelLake.Types KernelLake.Expressions KernelLake.LogicalPlans KernelLake.Simplification
open KernelLake.Optimizer KernelLake.RewriteFuel

/-! ## Calls -/

/-- The call for the conjuncts that go to one input of a join; there is none for no conjunct. -/
def pushInvocations (input : LogicalPlan) : List Expression → List LogicalPlan
  | [] => []
  | first :: rest => [.filter input (conjunction first rest)]

/-- The calls a filter makes after its child has been rewritten and its predicate simplified. -/
def filterInvocations (predicate : Expression) : LogicalPlan → List LogicalPlan
  | .filter grandchild inner => [.filter grandchild (mergedPredicate predicate inner)]
  | .join left right _ _ joinType _ =>
    if (constantPredicate predicate).isSome then []
    else
      let placement := placeConjuncts left.width joinType (collectConjuncts predicate)
      pushInvocations left placement.left ++ pushInvocations right placement.right
  | _ => []

/-- The plans one call of the rewriter calls itself on, where `rewrite` is what its calls return. -/
def invocations (rewrite : LogicalPlan → LogicalPlan) : LogicalPlan → List LogicalPlan
  | .scan _ => []
  | .join left right _ _ _ _ => [left, right]
  | .filter child predicate =>
    child :: filterInvocations (simplifyExpression predicate) (rewrite child)
  | .projection child _ => [child]
  | .aggregate child _ _ => [child]
  | .sort child _ => [child]
  | .limit child _ => [child]

/-- The call on a plan returns a result: with some results of the calls it makes, all of which
return. -/
inductive Returns : LogicalPlan → LogicalPlan → Prop
  | call (rewrite : LogicalPlan → LogicalPlan) (plan : LogicalPlan)
      (inside : ∀ inner ∈ invocations rewrite plan, Returns inner (rewrite inner)) :
      Returns plan (rewriteStep rewrite plan)

/-! ## A step depends on its calls only -/

variable {rewrite other : LogicalPlan → LogicalPlan}

theorem pushInto_congr {input : LogicalPlan} {predicates : List Expression}
    (same : ∀ inner ∈ pushInvocations input predicates, rewrite inner = other inner) :
    pushInto rewrite input predicates = pushInto other input predicates := by
  cases predicates with
  | nil => rfl
  | cons first rest => exact same _ (List.mem_singleton.mpr rfl)

theorem rewriteFilter_congr {child : LogicalPlan} {predicate : Expression}
    (same : ∀ inner ∈ filterInvocations predicate child, rewrite inner = other inner) :
    rewriteFilter rewrite child predicate = rewriteFilter other child predicate := by
  cases child with
  | filter grandchild inner => exact same _ (List.mem_singleton.mpr rfl)
  | join left right leftKeyIndex rightKeyIndex joinType residualPredicate =>
    cases constant : constantPredicate predicate with
    | some value => cases value <;> simp only [rewriteFilter, constant]
    | none =>
      simp only [filterInvocations, constant, Option.isSome_none, Bool.false_eq_true, if_false] at same
      obtain ⟨leftSame, rightSame⟩ := List.forall_mem_append.mp same
      simp only [rewriteFilter, constant, pushPredicateThroughJoin, pushInto_congr leftSame,
        pushInto_congr rightSame]
  | _ => rfl

theorem rewriteStep_congr {plan : LogicalPlan}
    (same : ∀ inner ∈ invocations rewrite plan, rewrite inner = other inner) :
    rewriteStep rewrite plan = rewriteStep other plan := by
  cases plan with
  | scan source => rfl
  | join left right leftKeyIndex rightKeyIndex joinType residualPredicate =>
    have leftSame := same left (List.mem_cons_self ..)
    have rightSame := same right (List.mem_cons_of_mem _ (List.mem_singleton.mpr rfl))
    simp only [rewriteStep, leftSame, rightSame]
  | filter child predicate =>
    obtain ⟨childSame, rest⟩ := List.forall_mem_cons.mp same
    rw [childSame] at rest
    simp only [rewriteStep, childSame]
    exact rewriteFilter_congr rest
  | projection child items => simp only [rewriteStep, same child (List.mem_singleton.mpr rfl)]
  | aggregate child groupBy aggregates =>
    simp only [rewriteStep, same child (List.mem_singleton.mpr rfl)]
  | sort child keys => simp only [rewriteStep, same child (List.mem_singleton.mpr rfl)]
  | limit child limit => simp only [rewriteStep, same child (List.mem_singleton.mpr rfl)]

/-! ## Every call is smaller -/

theorem eq_of_mem_pushInvocations {input inner : LogicalPlan} {predicates : List Expression}
    (member : inner ∈ pushInvocations input predicates) : ∃ conjunct, inner = .filter input conjunct := by
  cases predicates with
  | nil => cases member
  | cons first rest => exact ⟨_, List.mem_singleton.mp member⟩

/-- The calls after the child's are on merged filters or on filters below a join. -/
theorem called_of_filterInvocations {child inner : LogicalPlan} {outer predicate : Expression}
    (member : inner ∈ filterInvocations predicate (rewritePlan child)) :
    Called (.filter child outer) inner := by
  have shape := rewritePlan_shape child
  generalize rewrittenEq : rewritePlan child = rewritten at member shape
  cases rewritten with
  | filter grandchild innermost =>
    obtain rfl := List.mem_singleton.mp member
    exact called_merged shape _
  | join left right leftKeyIndex rightKeyIndex joinType residualPredicate =>
    obtain ⟨operators, runs, _⟩ := shape
    simp only [operatorCount] at operators
    simp only [longestRun] at runs
    simp only [filterInvocations] at member
    split at member
    · cases member
    · rcases List.mem_append.mp member with below | below
      · obtain ⟨conjunct, rfl⟩ := eq_of_mem_pushInvocations below
        exact called_below (by omega) (by omega) conjunct
      · obtain ⟨conjunct, rfl⟩ := eq_of_mem_pushInvocations below
        exact called_below (by omega) (by omega) conjunct
  | _ => cases member

theorem called_of_invoked {plan inner : LogicalPlan} (member : inner ∈ invocations rewritePlan plan) :
    Called plan inner := by
  cases plan with
  | scan source => cases member
  | join left right leftKeyIndex rightKeyIndex joinType residualPredicate =>
    rcases List.mem_cons.mp member with rfl | member
    · exact called_of_fewer (by simp [longestRun]) (by simp only [operatorCount]; omega)
    · obtain rfl := List.mem_singleton.mp member
      exact called_of_fewer (by simp [longestRun]) (by simp only [operatorCount]; omega)
  | filter child predicate =>
    rcases List.mem_cons.mp member with rfl | member
    · exact called_child inner predicate
    · exact called_of_filterInvocations member
  | _ =>
    obtain rfl := List.mem_singleton.mp member
    exact called_of_fewer (by simp [longestRun]) (by simp only [operatorCount]; omega)

/-- Along calls the measure of the first plan's bound decreases, so no chain of calls is infinite. -/
theorem accessible_of_fuel {invoked : LogicalPlan → LogicalPlan → Prop}
    (calls : ∀ {inner plan}, invoked inner plan → Called plan inner) {bound : Nat} (large : 2 ≤ bound)
    (fuel : Nat) (plan : LogicalPlan) (within : longestRun plan ≤ bound)
    (needed : fuelNeeded bound plan < fuel) : Acc invoked plan := by
  induction fuel generalizing plan with
  | zero => omega
  | succ fuel hypothesis =>
    constructor
    intro inner invokedInner
    obtain ⟨short, less⟩ := calls invokedInner bound large within
    exact hypothesis inner short (by omega)

theorem wellFounded_invoked : WellFounded (fun inner plan => inner ∈ invocations rewritePlan plan) := by
  constructor
  intro plan
  apply accessible_of_fuel called_of_invoked (le_max_left 2 (longestRun plan)) _ plan (le_max_right ..)
  exact Nat.lt_succ_self _

/-! ## Every call returns -/

theorem returns_rewritePlan (plan : LogicalPlan) : Returns plan (rewritePlan plan) := by
  induction plan using wellFounded_invoked.induction with
  | _ plan hypothesis =>
    rw [rewritePlan_eq plan]
    exact .call rewritePlan plan hypothesis

theorem eq_of_returns {plan result : LogicalPlan} (returned : Returns plan result) :
    result = rewritePlan plan := by
  induction returned with
  | call rewrite plan _ hypothesis =>
    rw [rewritePlan_eq plan]
    exact rewriteStep_congr hypothesis

/-- Rewriting terminates on every plan: its calls are well-founded, so the call on a plan returns, with
one result, which satisfies the recursive equation. -/
theorem rewritePlan_terminates :
    WellFounded (fun inner plan => inner ∈ invocations rewritePlan plan) ∧
      ∀ plan, (∃! result, Returns plan result) ∧ Returns plan (rewritePlan plan) ∧
        rewritePlan plan = rewriteStep rewritePlan plan := by
  refine ⟨wellFounded_invoked, fun plan => ⟨?_, returns_rewritePlan plan, rewritePlan_eq plan⟩⟩
  exact ⟨rewritePlan plan, returns_rewritePlan plan, fun _ returned => eq_of_returns returned⟩

end KernelLake.RewriteTermination
