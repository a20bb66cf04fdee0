import KernelLake.ColumnProofs

/-!
Rewriting a plan preserves its rows and their order.

Each rule is one lemma over an arbitrary rewriter for the recursive calls; `rewriteStep_preserves`
assembles them and an induction on fuel carries the result to whole runs. The rows are those of the
total semantics: a conjunct that moves below a join is evaluated there on rows the join would have
dropped, so the rewritten plan may raise an error which the original does not.
-/

namespace KernelLake.RewriteProofs

open KernelLake.Types KernelLake.Expressions KernelLake.Evaluation KernelLake.LogicalPlans
open KernelLake.Simplification KernelLake.SimplificationProofs
open KernelLake.Optimizer KernelLake.PlanSemantics KernelLake.ColumnProofs
open KernelLake.Library.Relations

/-! ## Selections and joins -/

/-- A selection that reads only the left columns passes below a join of any kind. -/
theorem joinRows_filter_left {on : Row → Row → Bool} {joinType : JoinType} {rightWidth : Nat}
    {left right : List Row} {select keep : Row → Bool}
    (reads : ∀ row ∈ left, ∀ suffix, select (row ++ suffix) = keep row) :
    (joinRows on joinType rightWidth left right).filter select =
      joinRows on joinType rightWidth (left.filter keep) right := by
  have reads_row : ∀ row ∈ left, select row = keep row := by
    intro row member
    simpa using reads row member []
  cases joinType with
  | inner =>
    simp only [joinRows, List.filter_map]
    rw [← filter_innerJoin_left]
    congr 1
    refine List.filter_congr (fun pair member => ?_)
    exact reads pair.1 (mem_innerJoin.mp member).1 pair.2
  | leftOuter =>
    simp only [joinRows, List.filter_map]
    rw [← filter_outerJoin_left]
    congr 1
    refine List.filter_congr (fun pair member => ?_)
    exact reads pair.1 (mem_outerJoin_left member) _
  | leftSemi =>
    simp only [joinRows]
    rw [← filter_semiJoin]
    exact List.filter_congr (fun row member => reads_row row (List.mem_of_mem_filter member))
  | leftAnti =>
    simp only [joinRows]
    rw [← filter_antiJoin]
    exact List.filter_congr (fun row member => reads_row row (List.mem_of_mem_filter member))

/-- A selection that reads only the right columns passes below an inner join. -/
theorem joinRows_filter_right {on : Row → Row → Bool} {rightWidth : Nat} {left right : List Row}
    {select keep : Row → Bool}
    (reads : ∀ row ∈ left, ∀ other ∈ right, select (row ++ other) = keep other) :
    (joinRows on .inner rightWidth left right).filter select =
      joinRows on .inner rightWidth left (right.filter keep) := by
  simp only [joinRows, List.filter_map]
  rw [← filter_innerJoin_right]
  congr 1
  refine List.filter_congr (fun pair member => ?_)
  obtain ⟨inLeft, inRight, -⟩ := mem_innerJoin.mp member
  exact reads pair.1 inLeft pair.2 inRight

/-! ## Rewriters -/

/-- A rewriter that keeps the rows and the width of every plan. -/
structure Preserves (tables : Tables) (rewrite : LogicalPlan → LogicalPlan) : Prop where
  sameRows : ∀ plan, rows tables (rewrite plan) = rows tables plan
  sameWidth : ∀ plan, (rewrite plan).width = plan.width

variable {tables : Tables} {rewrite : LogicalPlan → LogicalPlan}

theorem rows_pushInto (preserves : Preserves tables rewrite) (input : LogicalPlan)
    (predicates : List Expression) :
    rows tables (pushInto rewrite input predicates) =
      (rows tables input).filter (passesAll predicates) := by
  cases predicates with
  | nil => simp [pushInto]
  | cons first rest =>
    rw [pushInto, preserves.sameRows]
    exact rows_filterAll tables input (first :: rest)

theorem width_pushInto (preserves : Preserves tables rewrite) (input : LogicalPlan)
    (predicates : List Expression) : (pushInto rewrite input predicates).width = input.width := by
  cases predicates with
  | nil => rfl
  | cons first rest =>
    rw [pushInto, preserves.sameWidth]
    rfl

/-- The three groups of conjuncts together say what all conjuncts say. -/
theorem passesAll_placed (leftCount : Nat) (joinType : JoinType) (conjuncts : List Expression)
    (row : Row) :
    passesAll conjuncts row =
      (passesAll (conjuncts.filter (onlyLeft leftCount)) row &&
        passesAll (conjuncts.filter (fun conjunct =>
          !onlyLeft leftCount conjunct && (onlyRight leftCount conjunct && joinType = .inner))) row &&
        passesAll (conjuncts.filter (fun conjunct =>
          !onlyLeft leftCount conjunct && !(onlyRight leftCount conjunct && joinType = .inner))) row) := by
  rw [Bool.eq_iff_iff]
  simp only [passesAll, Bool.and_eq_true, List.all_eq_true, List.mem_filter]
  constructor
  · intro all
    exact ⟨⟨fun conjunct member => all conjunct member.1, fun conjunct member => all conjunct member.1⟩,
      fun conjunct member => all conjunct member.1⟩
  · rintro ⟨⟨onLeft, onRight⟩, above⟩ conjunct member
    by_cases toLeft : onlyLeft leftCount conjunct = true
    · exact onLeft conjunct ⟨member, toLeft⟩
    · by_cases toRight : (onlyRight leftCount conjunct && decide (joinType = .inner)) = true
      · exact onRight conjunct ⟨member, by simpa [toLeft] using toRight⟩
      · exact above conjunct ⟨member, by simp [toLeft, Bool.not_eq_true _ |>.mp toRight]⟩

/-- Conjuncts over the left columns, and for an inner join conjuncts over the right columns, select
from a join what they select from its inputs. -/
theorem joinRows_push {on : Row → Row → Bool} {joinType : JoinType} {leftWidth rightWidth : Nat}
    {left right : List Row} (widths : ∀ row ∈ left, row.length = leftWidth)
    {lefts rights : List Expression} (leftLocal : ∀ conjunct ∈ lefts, onlyLeft leftWidth conjunct = true)
    (rightLocal : ∀ conjunct ∈ rights, onlyRight leftWidth conjunct = true ∧ joinType = .inner) :
    joinRows on joinType rightWidth (left.filter (passesAll lefts))
        (right.filter (passesAll (rights.map (shiftColumns leftWidth)))) =
      ((joinRows on joinType rightWidth left right).filter (passesAll lefts)).filter
        (passesAll rights) := by
  have readsLeft : ∀ row ∈ left, ∀ suffix, passesAll lefts (row ++ suffix) = passesAll lefts row := by
    intro row member suffix
    rw [passesAll_congr id (fun conjunct chosen => ?_), List.map_id]
    have inside := leftLocal conjunct chosen
    rw [← widths row member] at inside
    exact eval_of_onlyLeft inside suffix
  rw [joinRows_filter_left readsLeft]
  cases rights with
  | nil => simp
  | cons first rest =>
    obtain rfl := (rightLocal first (List.mem_cons_self ..)).2
    refine (joinRows_filter_right (fun row member other _ => ?_)).symm
    refine passesAll_congr (shiftColumns leftWidth) (fun conjunct chosen => ?_)
    have inside := (rightLocal conjunct chosen).1
    rw [← widths row (List.mem_of_mem_filter member)] at inside ⊢
    exact eval_of_onlyRight inside other

/-- Pushing conjuncts below a join keeps the rows of the filter over the join. -/
theorem rows_pushPredicateThroughJoin (preserves : Preserves tables rewrite)
    {left right : LogicalPlan} {leftKeyIndex rightKeyIndex : Nat} {joinType : JoinType}
    {residualPredicate : Option Expression} {predicate : Expression} {pushed : LogicalPlan}
    (ran : pushPredicateThroughJoin rewrite left right leftKeyIndex rightKeyIndex joinType
      residualPredicate predicate = some pushed) :
    rows tables pushed =
      rows tables (.filter
        (.join left right leftKeyIndex rightKeyIndex joinType residualPredicate) predicate) := by
  unfold pushPredicateThroughJoin at ran
  simp only at ran
  split at ran
  · cases ran
  obtain rfl := Option.some.inj ran
  rw [rows_filterAll]
  simp only [rows, rows_pushInto preserves, width_pushInto preserves, filterRows, placeConjuncts]
  rw [joinRows_push (rows_length tables left)
    (fun conjunct member => List.of_mem_filter member)
    (fun conjunct member => by
      have placed := List.of_mem_filter member
      simp only [Bool.and_eq_true, decide_eq_true_eq] at placed
      exact placed.2)]
  rw [List.filter_filter, List.filter_filter]
  refine List.filter_congr (fun row _ => ?_)
  rw [← passesAll_collectConjuncts, passesAll_placed left.width joinType (collectConjuncts predicate)]
  ac_rfl

theorem width_pushPredicateThroughJoin (preserves : Preserves tables rewrite)
    {left right : LogicalPlan} {leftKeyIndex rightKeyIndex : Nat} {joinType : JoinType}
    {residualPredicate : Option Expression} {predicate : Expression} {pushed : LogicalPlan}
    (ran : pushPredicateThroughJoin rewrite left right leftKeyIndex rightKeyIndex joinType
      residualPredicate predicate = some pushed) :
    pushed.width =
      (LogicalPlan.join left right leftKeyIndex rightKeyIndex joinType residualPredicate).width := by
  unfold pushPredicateThroughJoin at ran
  simp only at ran
  split at ran
  · cases ran
  obtain rfl := Option.some.inj ran
  rw [width_filterAll]
  have leftSame := width_pushInto preserves left
  have rightSame := width_pushInto preserves right
  simp only [LogicalPlan.width] at leftSame rightSame
  simp only [LogicalPlan.width, LogicalPlan.outputSchema, joinSchema_length, leftSame, rightSame]

/-! ## The other rules -/

theorem rows_insertLimit (limit : Int) (plan : LogicalPlan) :
    rows tables (insertLimit limit plan) = (rows tables plan).take limit.toNat := by
  induction plan with
  | projection child items hypothesis =>
    simp only [insertLimit, rows, hypothesis]
    exact List.map_take ..
  | _ => rfl

theorem width_insertLimit (limit : Int) (plan : LogicalPlan) :
    (insertLimit limit plan).width = plan.width := by
  cases plan <;> rfl

theorem isTrue_mergedPredicate (outer inner : Expression) (row : Row) :
    (eval (mergedPredicate outer inner) row).isTrue =
      ((eval outer row).isTrue && (eval inner row).isTrue) := by
  simp [mergedPredicate, simplifyExpression_eval, evalIn, binaryValue]

theorem eval_of_constantPredicate {predicate : Expression} {value : Bool}
    (constant : constantPredicate predicate = some value) (row : Row) :
    eval predicate row = .bool value := by
  unfold constantPredicate at constant
  split at constant
  · obtain rfl := Option.some.inj constant
    rfl
  · cases constant

theorem projectRow_simplifyItems (items : List NamedExpression) :
    projectRow (simplifyItems items) = projectRow items := by
  funext row
  simp only [projectRow, simplifyItems, List.map_map]
  exact List.map_congr_left (fun item _ => simplifyExpression_eval none row item.expr)

theorem aggregateRows_simplifyItems (groupBy aggregates : List NamedExpression) :
    aggregateRows (simplifyItems groupBy) (simplifyItems aggregates) =
      aggregateRows groupBy aggregates := by
  have outputs : groupOutput (simplifyItems aggregates) = groupOutput aggregates := by
    funext group
    simp only [groupOutput, simplifyItems, List.map_map]
    congr 1
    exact List.map_congr_left (fun item _ => simplifyExpression_eval (some group.2) [] item.expr)
  have groups : aggregateGroups (simplifyItems groupBy) = aggregateGroups groupBy := by
    funext input
    unfold aggregateGroups
    rw [projectRow_simplifyItems]
    simp [simplifyItems]
  funext input
  rw [aggregateRows, outputs, groups, aggregateRows]

theorem sortRows_simplifyKeys (keys : List SortKey) : sortRows (simplifyKeys keys) = sortRows keys := by
  have before : sortedBefore (simplifyKeys keys) = sortedBefore keys := by
    funext left right
    induction keys with
    | nil => rfl
    | cons key rest hypothesis =>
      simp only [simplifyKeys, List.map_cons, sortedBefore, simplifyExpression_eval]
      simp only [simplifyKeys] at hypothesis
      rw [hypothesis]
  funext input
  rw [sortRows, sortRows, before]

/-! ## Filters -/

theorem rewriteFilter_preserves (preserves : Preserves tables rewrite) (child : LogicalPlan)
    (predicate : Expression) :
    rows tables (rewriteFilter rewrite child predicate) = rows tables (.filter child predicate) ∧
      (rewriteFilter rewrite child predicate).width = child.width := by
  unfold rewriteFilter
  split
  · rename_i grandchild inner
    refine ⟨?_, preserves.sameWidth _⟩
    rw [preserves.sameRows]
    simp only [rows, filterRows, List.filter_filter]
    exact List.filter_congr (fun row _ => isTrue_mergedPredicate predicate inner row)
  · split
    · rename_i constant
      refine ⟨?_, rfl⟩
      refine (List.filter_eq_self.mpr (fun row _ => ?_)).symm
      rw [eval_of_constantPredicate constant]
      rfl
    · exact ⟨rfl, rfl⟩
    · split
      · rename_i left right leftKeyIndex rightKeyIndex joinType residualPredicate _
        cases ran : pushPredicateThroughJoin rewrite left right leftKeyIndex rightKeyIndex joinType
            residualPredicate predicate with
        | none => exact ⟨rfl, rfl⟩
        | some pushed =>
          exact ⟨rows_pushPredicateThroughJoin preserves ran, width_pushPredicateThroughJoin preserves ran⟩
      · exact ⟨rfl, rfl⟩

/-! ## The rewriter -/

theorem rewriteStep_preserves (preserves : Preserves tables rewrite) :
    Preserves tables (rewriteStep rewrite) where
  sameRows plan := by
    cases plan with
    | scan source => rfl
    | join left right leftKeyIndex rightKeyIndex joinType residualPredicate =>
      simp only [rewriteStep, rows, preserves.sameRows, preserves.sameWidth]
    | filter child predicate =>
      rw [rewriteStep, (rewriteFilter_preserves preserves _ _).1]
      simp only [rows, filterRows, preserves.sameRows, simplifyExpression_eval]
    | projection child items =>
      simp only [rewriteStep, rows, preserves.sameRows, projectRow_simplifyItems]
    | aggregate child groupBy aggregates =>
      simp only [rewriteStep, rows, preserves.sameRows, aggregateRows_simplifyItems]
    | sort child keys => simp only [rewriteStep, rows, preserves.sameRows, sortRows_simplifyKeys]
    | limit child limit => simp only [rewriteStep, rows_insertLimit, rows, preserves.sameRows]
  sameWidth plan := by
    have width := preserves.sameWidth
    cases plan with
    | scan source => rfl
    | join left right leftKeyIndex rightKeyIndex joinType residualPredicate =>
      simp only [LogicalPlan.width] at width
      simp only [rewriteStep, LogicalPlan.width, LogicalPlan.outputSchema, joinSchema_length, width]
    | filter child predicate =>
      rw [rewriteStep, (rewriteFilter_preserves preserves _ _).2, width]
      rfl
    | projection child items =>
      simp [rewriteStep, LogicalPlan.width, LogicalPlan.outputSchema, namedFields, simplifyItems]
    | aggregate child groupBy aggregates =>
      simp [rewriteStep, LogicalPlan.width, LogicalPlan.outputSchema, namedFields, simplifyItems]
    | sort child keys => exact width child
    | limit child limit =>
      rw [rewriteStep, width_insertLimit, width]
      rfl

theorem rewriteWith_preserves (tables : Tables) (fuel : Nat) :
    Preserves tables (rewriteWith fuel) := by
  induction fuel with
  | zero => exact ⟨fun _ => rfl, fun _ => rfl⟩
  | succ fuel hypothesis => exact rewriteStep_preserves hypothesis

/-- A rewritten plan has the rows of the original, in the same order. -/
theorem rows_rewritePlan (tables : Tables) (plan : LogicalPlan) :
    rows tables (rewritePlan plan) = rows tables plan :=
  (rewriteWith_preserves tables _).sameRows plan

/-- Executing a rewritten plan gives the result of the original, or an error: a conjunct pushed below
a join or merged into the filter under it meets rows the original never showed it. -/
theorem evaluate_or_fails_rewritePlan {tables : Tables} {plan : LogicalPlan} {result : List Row}
    (ran : evaluate tables plan = some result) :
    rows tables (rewritePlan plan) = result ∧
      (evaluate tables (rewritePlan plan) = some result ∨
        evaluate tables (rewritePlan plan) = none) := by
  unfold evaluate at ran ⊢
  split at ran
  · cases ran
  obtain rfl := Option.some.inj ran
  refine ⟨rows_rewritePlan tables plan, ?_⟩
  rw [rows_rewritePlan]
  split
  · exact .inr rfl
  · exact .inl rfl

end KernelLake.RewriteProofs
