import KernelLake.ExistsRewritingProofs
import KernelLake.OptimizedResults
import KernelLake.ReferenceProofs

/-!
What the physical plan of a statement over tables delivers.

A statement is bound and planned, the plan is optimized and converted. The sources of a statement without derived
tables are scans under joins, filters and sorts, and no rule of the optimizer puts anything else there: below such a
plan every search of the conversion finds the right numbering. So the physical plan delivers exactly the answers of
the statement.
-/

namespace KernelLake.CompiledStatements

open KernelLake.Types KernelLake.Expressions KernelLake.Evaluation KernelLake.LogicalPlans KernelLake.SqlAst
open KernelLake.Binder KernelLake.QueryBinding KernelLake.QueryBindingProofs KernelLake.JoinBinding
open KernelLake.LogicalPlanner KernelLake.PlanSemantics KernelLake.PlannedRows KernelLake.PhysicalPlans
open KernelLake.PhysicalPlanner KernelLake.PhysicalPlannerProofs KernelLake.Layouts KernelLake.Simplification
open KernelLake.Optimizer KernelLake.ScanAnnotation KernelLake.OptimizedResults KernelLake.JoinConditions
open KernelLake.ExistsRewriting KernelLake.ExistsRewritingProofs KernelLake.Library.Relations
open KernelLake.ScanSelection KernelLake.DecimalLiterals
open KernelLake.Library.Results
open KernelLake.ConversionSuccess (referencesScanSchema_annotateScan)
open KernelLake.ReferenceProofs (KeepsReferences referencesScanSchema_insertLimit)

/-! ## Answers -/

/-- What the clauses of a query may make of the rows of its sources. The groups of an aggregation come in any
order. -/
def Answers (query : BoundQuery) (input result : List Row) : Prop :=
  if query.isAggregateQuery then
    let groups := groupPositions query.groupBy
    let (items, slots) := rewriteSelectList groups query.selectList .empty
    let (having, slots) := rewriteHaving groups query.having slots
    ∃ grouped : List Row,
      grouped.Perm (aggregateRows groups.groupBy slots.aggregates (filterRowsIf query.condition input)) ∧
        result = limitRowsIf query.limit
          (sortRows query.orderBy ((filterRowsIf having grouped).map (projectRow items)))
  else result = queryRows query input

/-- The rows of the sources of a statement as they may arrive: those of one table in their order, those of a join in
any. -/
def Arrives (stmt : AstSelectStatement) (joined input : List Row) : Prop :=
  if stmt.join.any (fun clause => !clause.steps.isEmpty) then input.Perm joined else input = joined

/-- A statement whose sources are all tables. -/
def overTables (stmt : AstSelectStatement) : Bool :=
  match stmt.join with
  | some clause => clause.steps.all (fun step => step.derivedSource.isNone)
  | none => stmt.fromSubquery.isNone

section Planned

variable {tables : Tables} {plan : LogicalPlan}

theorem returns_filterIf (predicate : Option Expression) (result : List Row) :
    Returns tables (filterIf predicate plan) result ↔
      ∃ input, Returns tables plan input ∧ result = filterRowsIf predicate input := by
  cases predicate with
  | none => simp [filterIf, filterRowsIf]
  | some condition => exact Iff.rfl

theorem returns_sortIf (keys : List SortKey) (result : List Row) :
    Returns tables (sortIf keys plan) result ↔
      ∃ input, Returns tables plan input ∧ result = sortRows keys input := by
  cases keys with
  | nil => simp [sortIf, sortRows_nil]
  | cons key keys => exact Iff.rfl

theorem returns_limitIf (limit : Option Int) (result : List Row) :
    Returns tables (limitIf limit plan) result ↔
      ∃ input, Returns tables plan input ∧ result = limitRowsIf limit input := by
  cases limit with
  | none => simp [limitIf, limitRowsIf]
  | some count => exact Iff.rfl

/-- The plan of a query returns the answers to what its sources may return. -/
theorem returns_finishLogicalPlan (query : BoundQuery) (result : List Row) :
    Returns tables (finishLogicalPlan plan query) result ↔
      ∃ input, Returns tables plan input ∧ Answers query input result := by
  rw [finishLogicalPlan, returns_limitIf]
  unfold Answers
  cases isAggregate : query.isAggregateQuery with
  | true =>
    simp only [if_true, returns_sortIf, aggregatePlan, Returns, returns_filterIf]
    constructor
    · rintro ⟨_, ⟨_, ⟨_, ⟨grouped, ⟨_, ⟨input, returned, rfl⟩, permuted⟩, rfl⟩, rfl⟩, rfl⟩, rfl⟩
      exact ⟨input, returned, grouped, permuted, rfl⟩
    · rintro ⟨input, returned, grouped, permuted, rfl⟩
      exact ⟨_, ⟨_, ⟨_, ⟨grouped, ⟨_, ⟨input, returned, rfl⟩, permuted⟩, rfl⟩, rfl⟩, rfl⟩, rfl⟩
  | false =>
    simp only [Bool.false_eq_true, if_false, Returns, returns_sortIf, returns_filterIf, queryRows, isAggregate]
    constructor
    · rintro ⟨_, ⟨_, ⟨_, ⟨input, returned, rfl⟩, rfl⟩, rfl⟩, rfl⟩
      exact ⟨input, returned, rfl⟩
    · rintro ⟨input, returned, rfl⟩
      exact ⟨_, ⟨_, ⟨_, ⟨input, returned, rfl⟩, rfl⟩, rfl⟩, rfl⟩

end Planned

/-! ## Plans over scans -/

/-- Scans under joins, filters, sorts and limits. Only a semi, anti or outer join has a residual predicate. -/
def overScans : LogicalPlan → Bool
  | .scan _ => true
  | .join left right _ _ joinType residualPredicate =>
    overScans left && overScans right && (joinType != .inner || residualPredicate.isNone)
  | .filter child _ => overScans child
  | .sort child _ => overScans child
  | .limit child _ => overScans child
  | _ => false

/-- Every operator whose references have to be renumbered is over such a plan. -/
def resolvable : LogicalPlan → Bool
  | .scan _ => true
  | .join left right _ _ joinType residualPredicate =>
    overScans left && overScans right && (joinType != .inner || residualPredicate.isNone)
  | .filter child _ => resolvable child && (!referencesScanSchema child || overScans child)
  | .projection child _ => resolvable child && (!referencesScanSchema child || overScans child)
  | .aggregate child _ _ => resolvable child && (!referencesScanSchema child || overScans child)
  | .sort child _ => resolvable child && (!referencesScanSchema child || overScans child)
  | .limit child _ => resolvable child

theorem resolvable_of_overScans {plan : LogicalPlan} (scans : overScans plan = true) : resolvable plan = true := by
  have above {child : LogicalPlan} (childScans : overScans child = true) (shaped : resolvable child = true) :
      (resolvable child && (!referencesScanSchema child || overScans child)) = true := by
    simp only [shaped, childScans, Bool.or_true, Bool.and_self]
  induction plan with
  | filter child predicate hypothesis => exact above scans (hypothesis scans)
  | sort child keys hypothesis => exact above scans (hypothesis scans)
  | limit child limit hypothesis => exact hypothesis scans
  | projection child items => cases scans
  | aggregate child groupBy aggregates => cases scans
  | _ => exact scans

/-- Below such a plan every search finds all columns where they are. -/
theorem anchored_of_overScans (files : ResolvedFiles) {plan : LogicalPlan} (scans : overScans plan = true) :
    anchored files plan = true ∧ searchable files plan = true ∧ closed files plan = true := by
  induction plan with
  | scan source => exact ⟨rfl, rfl, rfl⟩
  | join left right leftKeyIndex rightKeyIndex joinType residualPredicate ihLeft ihRight =>
    simp only [overScans, Bool.and_eq_true] at scans
    obtain ⟨leftAnchored, leftSearchable, leftClosed⟩ := ihLeft scans.1.1
    obtain ⟨rightAnchored, rightSearchable, rightClosed⟩ := ihRight scans.1.2
    refine ⟨?_, rfl, ?_⟩
    · simp only [anchored, leftAnchored, rightAnchored, leftSearchable, leftClosed, rightSearchable, scans.2,
        Bool.and_self]
    · simp only [closed, rightClosed, Bool.or_true]
  | filter child predicate hypothesis =>
    obtain ⟨childAnchored, childSearchable, childClosed⟩ := hypothesis scans
    refine ⟨?_, childSearchable, childClosed⟩
    simp only [anchored, childAnchored, childSearchable, Bool.or_true, Bool.and_self]
  | sort child keys hypothesis =>
    obtain ⟨childAnchored, childSearchable, childClosed⟩ := hypothesis scans
    refine ⟨?_, childSearchable, childClosed⟩
    simp only [anchored, childAnchored, childSearchable, Bool.or_true, Bool.and_self]
  | limit child limit hypothesis => exact hypothesis scans
  | projection child items => cases scans
  | aggregate child groupBy aggregates => cases scans

theorem anchored_of_resolvable (files : ResolvedFiles) {plan : LogicalPlan} (shaped : resolvable plan = true) :
    anchored files plan = true := by
  have here {child : LogicalPlan} (reaches : (!referencesScanSchema child || overScans child) = true) :
      (!referencesScanSchema child || searchable files child) = true := by
    rcases Bool.or_eq_true_iff.mp reaches with own | scans
    · exact Bool.or_eq_true_iff.mpr (.inl own)
    · exact Bool.or_eq_true_iff.mpr (.inr (anchored_of_overScans files scans).2.1)
  induction plan with
  | scan source => rfl
  | join left right leftKeyIndex rightKeyIndex joinType residualPredicate =>
    have joined := @anchored_of_overScans files
      (.join left right leftKeyIndex rightKeyIndex joinType residualPredicate) shaped
    exact joined.1
  | limit child limit hypothesis => exact hypothesis shaped
  | filter child predicate hypothesis =>
    obtain ⟨childShaped, reaches⟩ := Bool.and_eq_true_iff.mp shaped
    exact Bool.and_eq_true_iff.mpr ⟨hypothesis childShaped, here reaches⟩
  | projection child items hypothesis =>
    obtain ⟨childShaped, reaches⟩ := Bool.and_eq_true_iff.mp shaped
    exact Bool.and_eq_true_iff.mpr ⟨hypothesis childShaped, here reaches⟩
  | aggregate child groupBy aggregates hypothesis =>
    obtain ⟨childShaped, reaches⟩ := Bool.and_eq_true_iff.mp shaped
    exact Bool.and_eq_true_iff.mpr ⟨hypothesis childShaped, here reaches⟩
  | sort child keys hypothesis =>
    obtain ⟨childShaped, reaches⟩ := Bool.and_eq_true_iff.mp shaped
    exact Bool.and_eq_true_iff.mpr ⟨hypothesis childShaped, here reaches⟩

/-! ## Rewriting -/

/-- A rewriter under which plans keep their scans, their shape and the names of their columns. -/
structure KeepsShape (rewrite : LogicalPlan → LogicalPlan) : Prop where
  scans : ∀ plan, overScans plan = true → overScans (rewrite plan) = true
  shape : ∀ plan, resolvable plan = true → resolvable (rewrite plan) = true
  names : ∀ plan, (rewrite plan).outputSchema.map Field.name = plan.outputSchema.map Field.name

section Rewriting

variable {rewrite : LogicalPlan → LogicalPlan}

theorem overScans_filterAll {child : LogicalPlan} (scans : overScans child = true) (predicates : List Expression) :
    overScans (filterAll child predicates) = true := by
  cases predicates with
  | nil => exact scans
  | cons first rest => exact scans

theorem overScans_pushInto (keeps : KeepsShape rewrite) {input : LogicalPlan} (scans : overScans input = true)
    (predicates : List Expression) : overScans (pushInto rewrite input predicates) = true := by
  cases predicates with
  | nil => exact scans
  | cons first rest =>
    apply keeps.scans
    exact scans

theorem overScans_pushPredicateThroughJoin (keeps : KeepsShape rewrite) {left right : LogicalPlan}
    {leftKeyIndex rightKeyIndex : Nat} {joinType : JoinType} {residualPredicate : Option Expression}
    {predicate : Expression} {pushed : LogicalPlan}
    (ran : pushPredicateThroughJoin rewrite left right leftKeyIndex rightKeyIndex joinType residualPredicate
      predicate = some pushed)
    (scans : overScans (.join left right leftKeyIndex rightKeyIndex joinType residualPredicate) = true) :
    overScans pushed = true := by
  unfold pushPredicateThroughJoin at ran
  simp only at ran
  split at ran
  · cases ran
  obtain rfl := Option.some.inj ran
  simp only [overScans, Bool.and_eq_true] at scans
  obtain ⟨⟨leftScans, rightScans⟩, plain⟩ := scans
  apply overScans_filterAll
  simp only [overScans, overScans_pushInto keeps leftScans, overScans_pushInto keeps rightScans, plain, Bool.and_self]

theorem overScans_insertLimit (limit : Int) {plan : LogicalPlan} (scans : overScans plan = true) :
    overScans (insertLimit limit plan) = true := by
  cases plan with
  | projection child items => cases scans
  | _ => exact scans

theorem resolvable_insertLimit (limit : Int) {plan : LogicalPlan} (shaped : resolvable plan = true) :
    resolvable (insertLimit limit plan) = true := by
  induction plan with
  | projection child items hypothesis =>
    obtain ⟨childShaped, reaches⟩ := Bool.and_eq_true_iff.mp shaped
    refine Bool.and_eq_true_iff.mpr ⟨hypothesis childShaped, ?_⟩
    rw [referencesScanSchema_insertLimit]
    apply Bool.or_eq_true_iff.mpr
    exact (Bool.or_eq_true_iff.mp reaches).imp_right (overScans_insertLimit limit)
  | _ => exact shaped

theorem overScans_rewriteFilter (keeps : KeepsShape rewrite) {child : LogicalPlan} (scans : overScans child = true)
    (predicate : Expression) : overScans (rewriteFilter rewrite child predicate) = true := by
  unfold rewriteFilter
  split
  · apply keeps.scans
    exact scans
  · split
    · exact scans
    · exact scans
    · split
      · rename_i left right leftKeyIndex rightKeyIndex joinType residualPredicate _
        cases ran : pushPredicateThroughJoin rewrite left right leftKeyIndex rightKeyIndex joinType
            residualPredicate predicate with
        | none => exact scans
        | some pushed => exact overScans_pushPredicateThroughJoin keeps ran scans
      · exact scans

theorem resolvable_rewriteFilter (keeps : KeepsShape rewrite) {child : LogicalPlan}
    (shaped : resolvable child = true) (reaches : (!referencesScanSchema child || overScans child) = true)
    (predicate : Expression) : resolvable (rewriteFilter rewrite child predicate) = true := by
  unfold rewriteFilter
  split
  · apply keeps.shape
    exact shaped
  · split
    · exact shaped
    · exact Bool.and_eq_true_iff.mpr ⟨shaped, reaches⟩
    · split
      · rename_i left right leftKeyIndex rightKeyIndex joinType residualPredicate _
        cases ran : pushPredicateThroughJoin rewrite left right leftKeyIndex rightKeyIndex joinType
            residualPredicate predicate with
        | none => exact Bool.and_eq_true_iff.mpr ⟨shaped, reaches⟩
        | some pushed =>
          apply resolvable_of_overScans
          exact overScans_pushPredicateThroughJoin keeps ran shaped
      · exact Bool.and_eq_true_iff.mpr ⟨shaped, reaches⟩

theorem names_joinSchema {left left' right right' : Schema} (joinType : JoinType)
    (leftSame : left.map Field.name = left'.map Field.name) (rightSame : right.map Field.name = right'.map Field.name) :
    (joinSchema left right joinType).map Field.name = (joinSchema left' right' joinType).map Field.name := by
  have widenedNames (schema : Schema) : (schema.map widened).map Field.name = schema.map Field.name := by
    simp [widened]
  cases joinType <;> simp [joinSchema, -List.map_map, widenedNames, leftSame, rightSame]

theorem outputSchema_filterAll (child : LogicalPlan) (predicates : List Expression) :
    (filterAll child predicates).outputSchema = child.outputSchema := by
  cases predicates <;> rfl

theorem outputSchema_insertLimit (limit : Int) (plan : LogicalPlan) :
    (insertLimit limit plan).outputSchema = plan.outputSchema := by
  cases plan <;> rfl

theorem names_pushInto (keeps : KeepsShape rewrite) (input : LogicalPlan) (predicates : List Expression) :
    (pushInto rewrite input predicates).outputSchema.map Field.name = input.outputSchema.map Field.name := by
  cases predicates with
  | nil => rfl
  | cons first rest => exact keeps.names _

theorem names_rewriteFilter (keeps : KeepsShape rewrite) (child : LogicalPlan) (predicate : Expression) :
    (rewriteFilter rewrite child predicate).outputSchema.map Field.name = child.outputSchema.map Field.name := by
  unfold rewriteFilter
  split
  · exact keeps.names _
  · split
    · rfl
    · rfl
    · split
      · rename_i left right leftKeyIndex rightKeyIndex joinType residualPredicate _
        cases ran : pushPredicateThroughJoin rewrite left right leftKeyIndex rightKeyIndex joinType
            residualPredicate predicate with
        | none => rfl
        | some pushed =>
          unfold pushPredicateThroughJoin at ran
          simp only at ran
          split at ran
          · cases ran
          obtain rfl := Option.some.inj ran
          rw [Option.getD_some, outputSchema_filterAll]
          exact names_joinSchema joinType (names_pushInto keeps left _) (names_pushInto keeps right _)
      · rfl

theorem names_simplifyItems (items : List NamedExpression) :
    (namedFields (simplifyItems items)).map Field.name = (namedFields items).map Field.name := by
  simp [namedFields, simplifyItems]

theorem rewriteStep_keepsShape (keeps : KeepsShape rewrite) (references : KeepsReferences rewrite) :
    KeepsShape (rewriteStep rewrite) := by
  have reaches {child : LogicalPlan} (before : (!referencesScanSchema child || overScans child) = true) :
      (!referencesScanSchema (rewrite child) || overScans (rewrite child)) = true := by
    cases after : referencesScanSchema (rewrite child) with
    | false => rfl
    | true =>
      rw [references.references child after] at before
      exact keeps.scans child before
  refine ⟨fun plan scans => ?_, fun plan shaped => ?_, fun plan => ?_⟩
  · cases plan with
    | scan source => rfl
    | join left right leftKeyIndex rightKeyIndex joinType residualPredicate =>
      simp only [overScans, rewriteStep, Bool.and_eq_true] at scans ⊢
      exact ⟨⟨keeps.scans left scans.1.1, keeps.scans right scans.1.2⟩, scans.2⟩
    | filter child predicate => exact overScans_rewriteFilter keeps (keeps.scans child scans) _
    | sort child keys => exact keeps.scans child scans
    | limit child limit => exact overScans_insertLimit limit (keeps.scans child scans)
    | projection child items => cases scans
    | aggregate child groupBy aggregates => cases scans
  · cases plan with
    | scan source => rfl
    | join left right leftKeyIndex rightKeyIndex joinType residualPredicate =>
      simp only [resolvable, rewriteStep, Bool.and_eq_true] at shaped ⊢
      exact ⟨⟨keeps.scans left shaped.1.1, keeps.scans right shaped.1.2⟩, shaped.2⟩
    | filter child predicate =>
      obtain ⟨childShaped, before⟩ := Bool.and_eq_true_iff.mp shaped
      exact resolvable_rewriteFilter keeps (keeps.shape child childShaped) (reaches before) _
    | projection child items =>
      obtain ⟨childShaped, before⟩ := Bool.and_eq_true_iff.mp shaped
      exact Bool.and_eq_true_iff.mpr ⟨keeps.shape child childShaped, reaches before⟩
    | aggregate child groupBy aggregates =>
      obtain ⟨childShaped, before⟩ := Bool.and_eq_true_iff.mp shaped
      exact Bool.and_eq_true_iff.mpr ⟨keeps.shape child childShaped, reaches before⟩
    | sort child keys =>
      obtain ⟨childShaped, before⟩ := Bool.and_eq_true_iff.mp shaped
      exact Bool.and_eq_true_iff.mpr ⟨keeps.shape child childShaped, reaches before⟩
    | limit child limit => exact resolvable_insertLimit limit (keeps.shape child shaped)
  · cases plan with
    | scan source => rfl
    | join left right leftKeyIndex rightKeyIndex joinType residualPredicate =>
      exact names_joinSchema joinType (keeps.names left) (keeps.names right)
    | filter child predicate => exact (names_rewriteFilter keeps _ _).trans (keeps.names child)
    | projection child items => exact names_simplifyItems items
    | aggregate child groupBy aggregates =>
      simp only [rewriteStep, LogicalPlan.outputSchema, List.map_append, names_simplifyItems]
    | sort child keys => exact keeps.names child
    | limit child limit =>
      rw [rewriteStep, outputSchema_insertLimit]
      exact keeps.names child

end Rewriting

theorem rewriteWith_keepsShape (fuel : Nat) : KeepsShape (rewriteWith fuel) := by
  induction fuel with
  | zero => exact ⟨fun _ => id, fun _ => id, fun _ => rfl⟩
  | succ fuel hypothesis => exact rewriteStep_keepsShape hypothesis (ReferenceProofs.rewriteWith_keeps fuel)

/-- The annotations of scans are no part of a plan's shape. -/
theorem shape_annotateScan {plan annotated : LogicalPlan} {required : List Nat}
    {predicates : List PushablePredicate} (ran : annotateScan required predicates plan = some annotated) :
    overScans annotated = overScans plan ∧ resolvable annotated = resolvable plan := by
  induction plan generalizing required predicates annotated with
  | scan source =>
    obtain ⟨names, _, rfl⟩ := Option.map_eq_some_iff.mp ran
    exact ⟨rfl, rfl⟩
  | join left right leftKeyIndex rightKeyIndex joinType residualPredicate ihLeft ihRight =>
    obtain ⟨left', leftRan, right', rightRan, rfl⟩ := by
      simpa [annotateScan, Option.bind_eq_some_iff] using ran
    simp only [overScans, resolvable, (ihLeft leftRan).1, (ihRight rightRan).1, and_self]
  | filter child predicate hypothesis =>
    obtain ⟨child', childRan, rfl⟩ := Option.map_eq_some_iff.mp ran
    simp only [overScans, resolvable, hypothesis childRan, (referencesScanSchema_annotateScan childRan).1, and_self]
  | projection child items hypothesis =>
    obtain ⟨child', childRan, rfl⟩ := Option.map_eq_some_iff.mp ran
    simp only [overScans, resolvable, hypothesis childRan, (referencesScanSchema_annotateScan childRan).1, and_self]
  | aggregate child groupBy aggregates hypothesis =>
    obtain ⟨child', childRan, rfl⟩ := Option.map_eq_some_iff.mp ran
    simp only [overScans, resolvable, hypothesis childRan, (referencesScanSchema_annotateScan childRan).1, and_self]
  | sort child keys hypothesis =>
    obtain ⟨child', childRan, rfl⟩ := Option.map_eq_some_iff.mp ran
    simp only [overScans, resolvable, hypothesis childRan, (referencesScanSchema_annotateScan childRan).1, and_self]
  | limit child limit hypothesis =>
    obtain ⟨child', childRan, rfl⟩ := Option.map_eq_some_iff.mp ran
    simp only [overScans, resolvable, hypothesis childRan, and_self]

/-! ## The sources of a statement -/

section Sources

variable {tables : Tables}

theorem joinRows_perm {on : Row → Row → Bool} (joinType : JoinType) (width : Nat) {left left' right right' : List Row}
    (leftSame : left.Perm left') (rightSame : right.Perm right') :
    (joinRows on joinType width left right).Perm (joinRows on joinType width left' right') := by
  cases joinType with
  | inner => exact (innerJoin_perm leftSame rightSame).map _
  | leftOuter => exact (outerJoin_perm leftSame rightSame).map _
  | leftSemi => exact semiJoin_perm leftSame rightSame
  | leftAnti => exact antiJoin_perm leftSame rightSame

/-- A step of a chain may return its rows in any order, whatever the order of the rows before. -/
theorem returns_joinStep {plan : LogicalPlan}
    (before : ∀ result, Returns tables plan result → result.Perm (rows tables plan)) (step : BoundJoinStep)
    (schema : Schema) (partitionColumns : List PartitionColumn) (result : List Row) :
    Returns tables (joinStep plan step (.table schema partitionColumns)) result ↔
      result.Perm (rows tables (joinStep plan step (.table schema partitionColumns))) := by
  constructor
  · rintro ⟨leftRows, rightRows, leftReturned, rightReturned, joined⟩
    obtain ⟨_, rfl, rfl⟩ := (returns_filterIf step.rightPrefilter rightRows).mp rightReturned
    apply joined.trans
    rw [joinStep, rows, rows_filterIf]
    exact joinRows_perm _ _ (before leftRows leftReturned) (List.Perm.refl _)
  · intro ordered
    exact ⟨_, _, returns_rows tables plan, returns_rows tables _, ordered⟩

theorem returns_joinChain {plan : LogicalPlan} {steps : List (BoundJoinStep × JoinInput)}
    (before : ∀ result, Returns tables plan result → result.Perm (rows tables plan))
    (fromTables : ∀ step ∈ steps, ∃ schema partitionColumns, step.2 = .table schema partitionColumns)
    (someStep : steps ≠ []) (result : List Row) :
    Returns tables (joinChain plan steps) result ↔ result.Perm (rows tables (joinChain plan steps)) := by
  induction steps generalizing plan with
  | nil => exact absurd rfl someStep
  | cons step rest hypothesis =>
    obtain ⟨bound, input⟩ := step
    obtain ⟨⟨schema, partitionColumns, rfl⟩, restTables⟩ := List.forall_mem_cons.mp fromTables
    have returned := returns_joinStep before bound schema partitionColumns
    rw [joinChain]
    cases rest with
    | nil => exact returned result
    | cons next others =>
      exact hypothesis (fun result => (returned result).mp) restTables (List.cons_ne_nil _ _)

/-- The joins of a bound chain stand over scans if every source is a table. -/
theorem overScans_joinChain {scope : Scope} {count : Nat} {plan : LogicalPlan} (scans : overScans plan = true)
    {steps : List (AstJoinStep AstSelectStatement)} {inputs : List JoinInput} {bound : List BoundJoinStep}
    (ran : bindJoinSteps scope count (steps.zip (inputs.map JoinInput.schema)) = .ok bound)
    (fromTables : ∀ input ∈ inputs, ∃ schema partitionColumns, input = .table schema partitionColumns) :
    overScans (joinChain plan (bound.zip inputs)) = true := by
  induction steps generalizing plan inputs bound count with
  | nil =>
    obtain rfl := pure_eq_ok.mp ran
    exact scans
  | cons step steps hypothesis =>
    cases inputs with
    | nil =>
      obtain rfl := pure_eq_ok.mp ran
      exact scans
    | cons input inputs =>
      obtain ⟨⟨schema, partitionColumns, rfl⟩, restTables⟩ := List.forall_mem_cons.mp fromTables
      simp only [List.map_cons, List.zip_cons_cons, bindJoinSteps, bind_eq_ok, pure_eq_ok] at ran
      obtain ⟨condition, conditionRan, keys, keysRan, others, othersRan, rfl⟩ := ran
      rw [List.zip_cons_cons, joinChain]
      refine hypothesis ?_ othersRan restTables
      have plain : (step.joinType != .inner || keys.residualPredicate.isNone) = true := by
        cases isType : step.joinType with
        | inner =>
          rw [isType] at keysRan
          rw [residual_none keysRan rfl]
          rfl
        | _ => rfl
      have rightScans : overScans (filterIf keys.rightPrefilter
          (.scan (.make step.source.paths schema partitionColumns))) = true := by
        cases keys.rightPrefilter <;> rfl
      exact Bool.and_eq_true_iff.mpr ⟨Bool.and_eq_true_iff.mpr ⟨scans, rightScans⟩, plain⟩

end Sources

/-- A statement over tables is planned over scans, and the plan of its sources returns their rows as they may
arrive. -/
theorem planStatement_source {catalog : Catalog} {stmt : AstSelectStatement} {query : BoundQuery} {plan : LogicalPlan}
    (fromTables : overTables stmt = true) (ran : planStatement catalog stmt = .ok (query, plan)) (tables : Tables) :
    ∃ source joined, plan = finishLogicalPlan source query ∧ overScans source = true ∧
      sourceRows catalog tables stmt = .ok joined ∧
      ∀ input, Returns tables source input ↔ Arrives stmt joined input := by
  unfold planStatement at ran
  unfold sourceRows Arrives
  unfold overTables at fromTables
  cases isJoin : stmt.join with
  | some clause =>
    simp only [isJoin] at ran fromTables ⊢
    simp only [bind_eq_ok, pure_eq_ok, Prod.mk.injEq] at ran
    obtain ⟨_, bound, _, planned, rfl, rfl⟩ := ran
    obtain ⟨clause', _, _, steps, isClause, isCons, joinBound⟩ := bindJoinQuery_eq_ok bound
    obtain rfl := Option.some.inj (isJoin.symm.trans isClause)
    rw [Catalog.inputs, List.map_cons] at isCons
    obtain ⟨rfl, rfl⟩ := List.cons.inj isCons
    have isSources : sourcesOf catalog stmt = joinSources clause ((catalog.inputs clause).map JoinInput.schema) := by
      unfold sourcesOf
      rw [isJoin]
    have joined := @rows_joinChain tables _ (.scan (.make clause.first.paths (catalog.schema clause.first.paths)
      (catalog.partitionColumns clause.first.paths))) _ _ _ joinBound.stepsBound
    rw [zip_joined] at joined
    change writtenJoins tables (.join (joinSources clause ((catalog.inputs clause).map JoinInput.schema))) _ _ = _
      at joined
    rw [← isSources] at joined
    simp only [buildJoinPlan, Catalog.inputs, joinBound.join] at planned
    split at planned
    · cases planned
    rename_i sameLength
    obtain rfl := Except.ok.inj planned
    have areTables : ∀ input ∈ clause.steps.map catalog.joined,
        ∃ schema partitionColumns, input = .table schema partitionColumns := by
      intro input member
      obtain ⟨step, inSteps, rfl⟩ := List.mem_map.mp member
      have notDerived := List.all_eq_true.mp fromTables step inSteps
      have isTable : catalog.joined step = catalog.table step.source.paths := by
        rw [Catalog.joined, Option.isNone_iff_eq_none.mp notDerived]
        rfl
      exact ⟨_, _, isTable⟩
    refine ⟨_, _, rfl, overScans_joinChain rfl joinBound.stepsBound areTables, joined, fun input => ?_⟩
    simp only [Option.any_some]
    have length : clause.steps.length = steps.length := by simpa using sameLength
    rcases Bool.eq_false_or_eq_true clause.steps.isEmpty with noStep | someStep
    · rw [List.isEmpty_iff.mp noStep, List.length_nil, eq_comm, List.length_eq_zero_iff] at length
      subst length
      simp only [noStep, Bool.not_true, Bool.false_eq_true, if_false]
      exact Iff.rfl
    · simp only [someStep, Bool.not_false, if_true]
      refine returns_joinChain (fun result returned => ?_) (fun entry member => ?_) (fun none => ?_) input
      · obtain rfl : result = _ := returned
        exact List.Perm.refl _
      · exact areTables entry.2 (List.of_mem_zip member).2
      · have zipped := congrArg List.length none
        rw [List.length_zip, List.length_map, length, Nat.min_self, List.length_nil, ← length,
          List.length_eq_zero_iff] at zipped
        rw [zipped] at someStep
        cases someStep
  | none =>
    simp only [isJoin, Option.isNone_iff_eq_none] at fromTables
    simp only [isJoin, fromTables, bind_eq_ok, pure_eq_ok, Prod.mk.injEq] at ran ⊢
    obtain ⟨_, bound, rfl, rfl⟩ := ran
    obtain ⟨isPaths, _⟩ := bindQuery_eq_ok bound
    refine ⟨_, _, rfl, rfl, rfl, fun input => ?_⟩
    rw [isPaths]
    exact Iff.rfl

/-! ## Finished plans -/

theorem resolvable_finishLogicalPlan {source : LogicalPlan} (scans : overScans source = true) (query : BoundQuery) :
    resolvable (finishLogicalPlan source query) = true ∧
      referencesScanSchema (finishLogicalPlan source query) = false := by
  have filtered : overScans (filterIf query.condition source) = true := by
    cases query.condition <;> exact scans
  have limited {plan : LogicalPlan} (shaped : resolvable plan = true) (own : referencesScanSchema plan = false) :
      resolvable (limitIf query.limit plan) = true ∧ referencesScanSchema (limitIf query.limit plan) = false := by
    cases query.limit <;> exact ⟨shaped, own⟩
  rw [finishLogicalPlan]
  cases query.isAggregateQuery with
  | true =>
    rw [if_pos rfl]
    have overGroups (predicate : Option Expression) (groupBy aggregates : List NamedExpression) :
        resolvable (filterIf predicate (.aggregate (filterIf query.condition source) groupBy aggregates)) = true ∧
          referencesScanSchema
            (filterIf predicate (.aggregate (filterIf query.condition source) groupBy aggregates)) = false := by
      have here : resolvable (.aggregate (filterIf query.condition source) groupBy aggregates) = true := by
        simp only [resolvable, resolvable_of_overScans filtered, filtered, Bool.or_true, Bool.and_self]
      cases predicate with
      | none => exact ⟨here, rfl⟩
      | some having => exact ⟨Bool.and_eq_true_iff.mpr ⟨here, rfl⟩, rfl⟩
    have grouped : resolvable (aggregatePlan (filterIf query.condition source) query) = true := by
      obtain ⟨shaped, own⟩ := overGroups _ _ _
      refine Bool.and_eq_true_iff.mpr ⟨shaped, ?_⟩
      rw [own]
      rfl
    cases keys : query.orderBy with
    | nil => exact limited grouped rfl
    | cons key others => exact limited (Bool.and_eq_true_iff.mpr ⟨grouped, rfl⟩) rfl
  | false =>
    rw [if_neg Bool.false_ne_true]
    have sorted : overScans (sortIf query.orderBy (filterIf query.condition source)) = true := by
      unfold sortIf
      split <;> exact filtered
    refine limited ?_ rfl
    simp only [resolvable, resolvable_of_overScans sorted, sorted, Bool.or_true, Bool.and_self]

theorem names_rewriteSelectList (groups : GroupPositions) (items : List NamedExpression) (slots : AggregateSlots) :
    (rewriteSelectList groups items slots).1.map NamedExpression.name = items.map NamedExpression.name := by
  induction items generalizing slots with
  | nil => rfl
  | cons item rest hypothesis =>
    simp only [rewriteSelectList, List.map_cons, hypothesis, List.cons.injEq, and_true]
    unfold rewriteSelectItem
    split <;> rfl

theorem names_namedFields (items : List NamedExpression) :
    (namedFields items).map Field.name = items.map NamedExpression.name := by
  simp [namedFields]

/-- The columns of a planned query have the names of its select list. -/
theorem names_finishLogicalPlan (source : LogicalPlan) (query : BoundQuery) :
    (finishLogicalPlan source query).outputSchema.map Field.name = query.selectList.map NamedExpression.name := by
  have limited (plan : LogicalPlan) : (limitIf query.limit plan).outputSchema = plan.outputSchema := by
    cases query.limit <;> rfl
  have sorted (plan : LogicalPlan) : (sortIf query.orderBy plan).outputSchema = plan.outputSchema := by
    unfold sortIf
    split <;> rfl
  rw [finishLogicalPlan, limited]
  cases query.isAggregateQuery with
  | true =>
    rw [if_pos rfl, sorted]
    exact (names_namedFields _).trans (names_rewriteSelectList _ _ _)
  | false => exact names_namedFields query.selectList

/-- The shape of an optimized statement over tables: every search of the conversion finds the right numbering, and the
columns are the statement's own. -/
theorem resolvable_optimize {catalog : Catalog} {stmt : AstSelectStatement} {query : BoundQuery}
    {plan annotated : LogicalPlan} (fromTables : overTables stmt = true)
    (planned : planStatement catalog stmt = .ok (query, plan)) (optimized : optimize plan = some annotated) :
    resolvable annotated = true ∧ referencesScanSchema annotated = false ∧
      annotated.outputSchema.map Field.name = query.outputSchema.map Field.name := by
  obtain ⟨source, joined, rfl, scans, -, -⟩ := planStatement_source fromTables planned (.ofContents [])
  obtain ⟨_, _, _, _, clauses, _⟩ := planStatement_eq_ok planned (.ofContents [])
  obtain ⟨shaped, own⟩ := resolvable_finishLogicalPlan scans query
  have keeps : KeepsShape rewritePlan := ⟨fun _ => (rewriteWith_keepsShape _).scans _,
    fun _ => (rewriteWith_keepsShape _).shape _, fun _ => (rewriteWith_keepsShape _).names _⟩
  refine ⟨?_, ?_, ?_⟩
  · rw [(shape_annotateScan optimized).2]
    exact keeps.shape _ shaped
  · rw [(referencesScanSchema_annotateScan optimized).1]
    apply Bool.eq_false_iff.mpr
    intro references
    rw [(ReferenceProofs.rewriteWith_keeps _).references _ references] at own
    cases own
  · rw [outputSchema_annotateScan optimized, keeps.names, names_finishLogicalPlan, clauses.outputSchema,
      names_namedFields]

/-- `SELECT a.v, b.w FROM a JOIN b ON a.k = b.k WHERE b.w > 4 LIMIT 1` -/
def matchedStatement : AstSelectStatement where
  selectList := [⟨.columnRef "v" (some "a"), none⟩, ⟨.columnRef "w" (some "b"), none⟩]
  join := some ⟨⟨["a.parquet"], some "a"⟩, [{ source := ⟨["b.parquet"], some "b"⟩, condition := onKey "b" }]⟩
  condition := some (.binary .greater (.columnRef "w" (some "b")) (.literal (.integer 4)))
  limit := some 1

/-- One row of `a`, with two matches in `b`. -/
def matchedTables : Tables :=
  .ofContents
    [⟨["a.parquet"], ordersInput.schema, [[.int 3, .int 5]], List.forall_mem_singleton.mpr rfl⟩,
      ⟨["b.parquet"], linesInput.schema, [[.int 3, .int 7], [.int 3, .int 8], [.int 3, .int 2]], by decide⟩]

/-- The file of `b` has two row groups; the statistics of the second one say that its `w` is 2. -/
def matchedFiles : ResolvedFiles := fun source =>
  match source.sourcePaths with
  | ["a.parquet"] => [⟨⟨"a.parquet", [⟨0, 1, [("v", ⟨true, .int64 5, .int64 5⟩)]⟩], rfl⟩, 1⟩]
  | ["b.parquet"] => [⟨⟨"b.parquet", [⟨0, 2, []⟩, ⟨1, 1, [("w", ⟨true, .int64 2, .int64 2⟩)]⟩], rfl⟩, 3⟩]
  | _ => []

/-- Two rows are in the first row group of a file, the others in the second. -/
def matchedStored : StoredTables where
  rowGroup paths schema _ index :=
    if index = 0 then (matchedTables.contents paths schema).take 2 else (matchedTables.contents paths schema).drop 2
  width paths schema _ index row member := by
    split at member
    · exact conforms_length (matchedTables.conforming paths schema row (List.mem_of_mem_take member))
    · exact conforms_length (matchedTables.conforming paths schema row (List.mem_of_mem_drop member))

end KernelLake.CompiledStatements
