import KernelLake.DecimalLiterals
import KernelLake.PhysicalPlannerProofs

/-!
The results an optimized plan may return.

Joins and aggregations deliver their rows in any order, so a plan has many results where a limit stands above
one. Optimizing a plan neither adds a result nor takes one away: a selection of some order of the rows is some
order of the selected rows, and the other rules keep the rows of every order.
-/

namespace KernelLake.OptimizedResults

open KernelLake.Types KernelLake.Expressions KernelLake.Evaluation KernelLake.LogicalPlans
open KernelLake.Simplification KernelLake.SimplificationProofs KernelLake.Optimizer
open KernelLake.PlanSemantics KernelLake.PhysicalPlans KernelLake.ColumnProofs KernelLake.RewriteProofs
open KernelLake.ScanAnnotation KernelLake.PhysicalPlannerProofs KernelLake.DecimalLiterals
open KernelLake.Library.Relations

variable {reads : Reads} {rewrite : LogicalPlan → LogicalPlan}

/-! ## Rules -/

/-- A rewriter that keeps the results and the width of every plan. -/
structure KeepsResults (reads : Reads) (rewrite : LogicalPlan → LogicalPlan) : Prop where
  sameResults : ∀ plan result, Returns reads (rewrite plan) result ↔ Returns reads plan result
  sameWidth : ∀ plan, (rewrite plan).width = plan.width

theorem returns_filterAll (child : LogicalPlan) (predicates : List Expression) (result : List Row) :
    Returns reads (filterAll child predicates) result ↔
      ∃ input, Returns reads child input ∧ result = input.filter (passesAll predicates) := by
  cases predicates with
  | nil => simp [filterAll]
  | cons first rest =>
    have same (input : List Row) :
        filterRows (conjunction first rest) input = input.filter (passesAll (first :: rest)) :=
      List.filter_congr (fun row _ => isTrue_conjunction first rest row)
    simp only [filterAll, Returns, same]

theorem returns_pushInto (keeps : KeepsResults reads rewrite) (input : LogicalPlan)
    (predicates : List Expression) (result : List Row) :
    Returns reads (pushInto rewrite input predicates) result ↔
      ∃ rows, Returns reads input rows ∧ result = rows.filter (passesAll predicates) := by
  rw [← returns_filterAll]
  cases predicates with
  | nil => exact Iff.rfl
  | cons first rest => exact keeps.sameResults _ _

theorem width_pushInto (keeps : KeepsResults reads rewrite) (input : LogicalPlan)
    (predicates : List Expression) : (pushInto rewrite input predicates).width = input.width := by
  cases predicates with
  | nil => rfl
  | cons first rest => exact keeps.sameWidth _

/-- The inputs of a join with conjuncts pushed into them, joined and filtered, are the join, filtered. -/
theorem returns_pushPredicateThroughJoin (keeps : KeepsResults reads rewrite)
    {left right : LogicalPlan} {leftKeyIndex rightKeyIndex : Nat} {joinType : JoinType}
    {residualPredicate : Option Expression} {predicate : Expression} {pushed : LogicalPlan}
    (ran : pushPredicateThroughJoin rewrite left right leftKeyIndex rightKeyIndex joinType
      residualPredicate predicate = some pushed) (result : List Row) :
    Returns reads pushed result ↔
      Returns reads (.filter
        (.join left right leftKeyIndex rightKeyIndex joinType residualPredicate) predicate) result := by
  unfold pushPredicateThroughJoin at ran
  simp only at ran
  split at ran
  · cases ran
  obtain rfl := Option.some.inj ran
  rw [returns_filterAll]
  simp only [Returns, width_pushInto keeps, returns_pushInto keeps, filterRows]
  -- What is selected of the pushed join is what is selected of the join, whatever its inputs return.
  have selected {leftRows : List Row} (returned : Returns reads left leftRows) (rightRows : List Row) :
      (joinRows (joinMatches leftKeyIndex rightKeyIndex residualPredicate) joinType right.width
          (leftRows.filter (passesAll (placeConjuncts left.width joinType (collectConjuncts predicate)).left))
          (rightRows.filter
            (passesAll (placeConjuncts left.width joinType (collectConjuncts predicate)).right))).filter
          (passesAll (placeConjuncts left.width joinType (collectConjuncts predicate)).remaining) =
        (joinRows (joinMatches leftKeyIndex rightKeyIndex residualPredicate) joinType right.width leftRows
          rightRows).filter (fun row => (eval predicate row).isTrue) := by
    simp only [placeConjuncts]
    rw [joinRows_push (length_of_returns returned) (fun conjunct member => List.of_mem_filter member)
      (fun conjunct member => by
        have placed := List.of_mem_filter member
        simp only [Bool.and_eq_true, decide_eq_true_eq] at placed
        exact placed.2), List.filter_filter, List.filter_filter]
    refine List.filter_congr (fun row _ => ?_)
    rw [← passesAll_collectConjuncts, passesAll_placed left.width joinType (collectConjuncts predicate)]
    ac_rfl
  constructor
  · rintro ⟨_, ⟨_, _, ⟨leftRows, leftReturned, rfl⟩, ⟨rightRows, rightReturned, rfl⟩, joined⟩, rfl⟩
    have same := joined.filter (passesAll
      (placeConjuncts left.width joinType (collectConjuncts predicate)).remaining)
    rw [selected leftReturned] at same
    obtain ⟨input, ordered, isFilter⟩ := exists_perm_filter.mpr same
    exact ⟨input, ⟨leftRows, rightRows, leftReturned, rightReturned, ordered⟩, isFilter⟩
  · rintro ⟨_, ⟨leftRows, rightRows, leftReturned, rightReturned, joined⟩, rfl⟩
    have same := joined.filter (fun row => (eval predicate row).isTrue)
    rw [← selected leftReturned] at same
    obtain ⟨input, ordered, isFilter⟩ := exists_perm_filter.mpr same
    exact ⟨input, ⟨_, _, ⟨leftRows, leftReturned, rfl⟩, ⟨rightRows, rightReturned, rfl⟩, ordered⟩, isFilter⟩

theorem returns_insertLimit (limit : Int) (plan : LogicalPlan) (result : List Row) :
    Returns reads (insertLimit limit plan) result ↔ Returns reads (.limit plan limit) result := by
  induction plan generalizing result with
  | projection child items hypothesis =>
    simp only [insertLimit, Returns, hypothesis]
    constructor
    · rintro ⟨_, ⟨input, returned, rfl⟩, rfl⟩
      exact ⟨_, ⟨input, returned, rfl⟩, List.map_take ..⟩
    · rintro ⟨_, ⟨input, returned, rfl⟩, rfl⟩
      exact ⟨_, ⟨input, returned, rfl⟩, List.map_take.symm⟩
  | _ => exact Iff.rfl

theorem rewriteFilter_keeps (keeps : KeepsResults reads rewrite) (child : LogicalPlan)
    (predicate : Expression) (result : List Row) :
    Returns reads (rewriteFilter rewrite child predicate) result ↔
      Returns reads (.filter child predicate) result := by
  unfold rewriteFilter
  split
  · rename_i grandchild inner
    rw [keeps.sameResults]
    have merged (input : List Row) :
        filterRows (mergedPredicate predicate inner) input = filterRows predicate (filterRows inner input) := by
      simp only [filterRows, List.filter_filter]
      exact List.filter_congr (fun row _ => isTrue_mergedPredicate predicate inner row)
    simp only [Returns, merged]
    constructor
    · rintro ⟨input, returned, rfl⟩
      exact ⟨_, ⟨input, returned, rfl⟩, rfl⟩
    · rintro ⟨_, ⟨input, returned, rfl⟩, rfl⟩
      exact ⟨input, returned, rfl⟩
  · split
    · rename_i constant
      have same (input : List Row) : filterRows predicate input = input :=
        List.filter_eq_self.mpr (fun row _ => by rw [eval_of_constantPredicate constant]; rfl)
      simp [Returns, same]
    · exact Iff.rfl
    · split
      · rename_i left right leftKeyIndex rightKeyIndex joinType residualPredicate _
        cases ran : pushPredicateThroughJoin rewrite left right leftKeyIndex rightKeyIndex joinType
            residualPredicate predicate with
        | none => exact Iff.rfl
        | some pushed => exact returns_pushPredicateThroughJoin keeps ran result
      · exact Iff.rfl

/-! ## The rewriter -/

attribute [local simp] Returns

theorem rewriteStep_keeps (keeps : KeepsResults reads rewrite)
    (widths : ∀ plan, (rewriteStep rewrite plan).width = plan.width) :
    KeepsResults reads (rewriteStep rewrite) where
  sameWidth := widths
  sameResults plan result := by
    cases plan with
    | scan source => exact Iff.rfl
    | join left right leftKeyIndex rightKeyIndex joinType residualPredicate =>
      simp only [rewriteStep, Returns, keeps.sameResults, keeps.sameWidth]
    | filter child predicate =>
      rw [rewriteStep, rewriteFilter_keeps keeps]
      simp only [Returns, filterRows, keeps.sameResults, simplifyExpression_eval]
    | projection child items => simp only [rewriteStep, Returns, keeps.sameResults, projectRow_simplifyItems]
    | aggregate child groupBy aggregates =>
      simp only [rewriteStep, Returns, keeps.sameResults, aggregateRows_simplifyItems]
    | sort child keys => simp only [rewriteStep, Returns, keeps.sameResults, sortRows_simplifyKeys]
    | limit child limit => simp only [rewriteStep, returns_insertLimit, Returns, keeps.sameResults]

theorem rewriteWith_keeps (reads : Reads) (fuel : Nat) : KeepsResults reads (rewriteWith fuel) := by
  induction fuel with
  | zero => exact ⟨fun _ _ => Iff.rfl, fun _ => rfl⟩
  | succ fuel hypothesis =>
    exact rewriteStep_keeps hypothesis (rewriteWith_preserves (.ofContents []) (fuel + 1)).sameWidth

theorem returns_rewritePlan (reads : Reads) (plan : LogicalPlan) (result : List Row) :
    Returns reads (rewritePlan plan) result ↔ Returns reads plan result :=
  (rewriteWith_keeps reads _).sameResults plan result

/-! ## Annotations -/

/-- The annotations of scans are no part of a plan's meaning. -/
theorem returns_annotateScan {tables : Tables} {plan annotated : LogicalPlan} {required : List Nat}
    {predicates : List PushablePredicate} (ran : annotateScan required predicates plan = some annotated)
    (result : List Row) :
    Returns tables (planInUnits annotated) result ↔ Returns tables (planInUnits plan) result := by
  induction plan generalizing required predicates annotated result with
  | scan source =>
    obtain ⟨names, _, rfl⟩ := Option.map_eq_some_iff.mp ran
    exact Iff.rfl
  | join left right leftKeyIndex rightKeyIndex joinType residualPredicate ihLeft ihRight =>
    obtain ⟨left', leftRan, right', rightRan, rfl⟩ := by
      simpa [annotateScan, Option.bind_eq_some_iff] using ran
    have width : right'.width = right.width := congrArg List.length (outputSchema_annotateScan rightRan)
    simp only [planInUnits, Returns, ihLeft leftRan, ihRight rightRan, width_planInUnits, width]
  | filter child predicate hypothesis =>
    obtain ⟨child', childRan, rfl⟩ := Option.map_eq_some_iff.mp ran
    simp only [planInUnits, Returns, hypothesis childRan]
  | projection child items hypothesis =>
    obtain ⟨child', childRan, rfl⟩ := Option.map_eq_some_iff.mp ran
    simp only [planInUnits, Returns, hypothesis childRan]
  | aggregate child groupBy aggregates hypothesis =>
    obtain ⟨child', childRan, rfl⟩ := Option.map_eq_some_iff.mp ran
    simp only [planInUnits, Returns, hypothesis childRan]
  | sort child keys hypothesis =>
    obtain ⟨child', childRan, rfl⟩ := Option.map_eq_some_iff.mp ran
    simp only [planInUnits, Returns, hypothesis childRan]
  | limit child limit hypothesis =>
    obtain ⟨child', childRan, rfl⟩ := Option.map_eq_some_iff.mp ran
    simp only [planInUnits, Returns, hypothesis childRan]

/-- `SELECT l.b FROM u AS l JOIN u AS r ON l.a = r.a WHERE l.b > 30 LIMIT 1` -/
def firstJoined : LogicalPlan :=
  .limit
    (.projection
      (.filter (.join (.scan (tripleScan "u.parquet")) (.scan (tripleScan "u.parquet")) 0 0 .inner none)
        (.binary .greater (.column "b" 1 int64Type) (makeInt64 30) booleanType))
      [⟨.column "b" 1 int64Type, "b"⟩]) 1

end KernelLake.OptimizedResults
