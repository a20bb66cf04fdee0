import KernelLake.Layouts
import KernelLake.ScanAnnotation

/-!
What a plan returns over the row groups selected for its scans.

Pruning leaves out row groups, and resolving a table may leave out whole files, in which every row fails a
predicate pushed to the scan. Two plans whose scans differ in such rows return the same results, up to rows
that fail the tests on their way down: an operator passes on nothing that it is not going to drop.
-/

namespace KernelLake.ScanSelection

open KernelLake.Types KernelLake.Expressions KernelLake.Evaluation KernelLake.LogicalPlans
open KernelLake.PlanSemantics KernelLake.Optimizer KernelLake.PhysicalPlans KernelLake.ScanAnnotation
open KernelLake.RewriteProofs KernelLake.SortProofs KernelLake.Library.Relations KernelLake.Layouts
open KernelLake.Pruning KernelLake.PruningProofs KernelLake.PhysicalPlanner

/-! ## Selections -/

/-- A scan gets the rows of its table, in order, less some that fail one of its pushed predicates. -/
def LeavesOutFailing (tables : Tables) (source : LogicalScan) (read : List Row) : Prop :=
  Thinned (fun row => ∃ predicate ∈ source.pushablePredicates,
      failsPredicate source.schema row predicate = true)
    (tables.contents source.sourcePaths source.schema) read

/-- What holds of every scan of a plan. -/
def EveryScan (holds : LogicalScan → Prop) : LogicalPlan → Prop
  | .scan source => holds source
  | .join left right _ _ _ _ => EveryScan holds left ∧ EveryScan holds right
  | .filter child _ => EveryScan holds child
  | .projection child _ => EveryScan holds child
  | .aggregate child _ _ => EveryScan holds child
  | .sort child _ => EveryScan holds child
  | .limit child _ => EveryScan holds child

/-- No scan of a plan loses a row that passes its pushed predicates. -/
def SelectsRightly (tables : Tables) (reads : Reads) (plan : LogicalPlan) : Prop :=
  EveryScan (fun source => LeavesOutFailing tables source (reads.rows source)) plan

theorem selectsRightly_reads (tables : Tables) (plan : LogicalPlan) : SelectsRightly tables tables plan := by
  have whole (source : LogicalScan) :
      LeavesOutFailing tables source (tables.contents source.sourcePaths source.schema) :=
    thinned_refl _ _
  unfold SelectsRightly
  induction plan with
  | scan source => exact whole source
  | join left right leftKeyIndex rightKeyIndex joinType residualPredicate ihLeft ihRight => exact ⟨ihLeft, ihRight⟩
  | filter child predicate hypothesis => exact hypothesis
  | projection child items hypothesis => exact hypothesis
  | aggregate child groupBy aggregates hypothesis => exact hypothesis
  | sort child keys hypothesis => exact hypothesis
  | limit child limit hypothesis => exact hypothesis

/-! ## Results that look the same -/

/-- Two sets of results of which the tests show the same. -/
def SameShown (tests : List ColumnTest) (first second : List Row → Prop) : Prop :=
  ∀ shown, (∃ result, first result ∧ result.filter (passesTests tests) = shown) ↔
    ∃ result, second result ∧ result.filter (passesTests tests) = shown

section Operators

variable {tests inner : List ColumnTest} {first second : List Row → Prop}

theorem sameShown_nil : SameShown [] first second ↔ ∀ result, first result ↔ second result := by
  simp [SameShown, filter_noTests]

/-- An operator that looks only at what the inner tests show. -/
theorem sameShown_operator {operator : List Row → List Row} (same : SameShown inner first second)
    (looks : ∀ input other : List Row, input.filter (passesTests inner) = other.filter (passesTests inner) →
      (operator input).filter (passesTests tests) = (operator other).filter (passesTests tests)) :
    SameShown tests (fun result => ∃ input, first input ∧ result = operator input)
      (fun result => ∃ input, second input ∧ result = operator input) := by
  intro shown
  constructor
  · rintro ⟨_, ⟨input, isFirst, rfl⟩, rfl⟩
    obtain ⟨other, isSecond, alike⟩ := (same _).mp ⟨input, isFirst, rfl⟩
    exact ⟨_, ⟨other, isSecond, rfl⟩, looks other input alike⟩
  · rintro ⟨_, ⟨input, isSecond, rfl⟩, rfl⟩
    obtain ⟨other, isFirst, alike⟩ := (same _).mpr ⟨input, isSecond, rfl⟩
    exact ⟨_, ⟨other, isFirst, rfl⟩, looks other input alike⟩

/-- The same for an operator that delivers its rows in any order. -/
theorem sameShown_permuted {operator : List Row → List Row} (same : SameShown inner first second)
    (looks : ∀ input other : List Row, input.filter (passesTests inner) = other.filter (passesTests inner) →
      (operator input).filter (passesTests tests) = (operator other).filter (passesTests tests)) :
    SameShown tests (fun result : List Row => ∃ input, first input ∧ result.Perm (operator input))
      (fun result => ∃ input, second input ∧ result.Perm (operator input)) := by
  -- What is shown of some order of the rows is some order of what is shown.
  have shownOf (reached : List Row → Prop) (shown : List Row) :
      (∃ result : List Row, (∃ input, reached input ∧ result.Perm (operator input)) ∧
          result.filter (passesTests tests) = shown) ↔
        ∃ input, reached input ∧ shown.Perm ((operator input).filter (passesTests tests)) := by
    constructor
    · rintro ⟨result, ⟨input, isReached, ordered⟩, rfl⟩
      exact ⟨input, isReached, ordered.filter _⟩
    · rintro ⟨input, isReached, ordered⟩
      obtain ⟨result, isOrder, rfl⟩ := exists_perm_filter.mpr ordered
      exact ⟨result, ⟨input, isReached, isOrder⟩, rfl⟩
  intro shown
  rw [shownOf, shownOf]
  constructor
  · rintro ⟨input, isFirst, ordered⟩
    obtain ⟨other, isSecond, alike⟩ := (same _).mp ⟨input, isFirst, rfl⟩
    exact ⟨other, isSecond, looks other input alike ▸ ordered⟩
  · rintro ⟨input, isSecond, ordered⟩
    obtain ⟨other, isFirst, alike⟩ := (same _).mpr ⟨input, isSecond, rfl⟩
    exact ⟨other, isFirst, looks other input alike ▸ ordered⟩

end Operators

/-! ## Plans -/

section Plans

variable {tables : Tables} {reads : Reads}

/-- The selection of row groups changes no result as far as the tests on their way down show. -/
theorem sameShown_annotateScan {plan annotated : LogicalPlan} {required : List Nat} {tests : List ColumnTest}
    {predicates : List PushablePredicate} (ran : annotateScan required predicates plan = some annotated)
    (covered : Covered tables plan tests predicates) (selected : SelectsRightly tables reads annotated) :
    SameShown tests (Returns reads annotated) (Returns tables plan) := by
  induction plan generalizing required tests predicates annotated with
  | scan source =>
    obtain ⟨names, _, rfl⟩ := Option.map_eq_some_iff.mp ran
    have safe : ∀ row ∈ tables.contents source.sourcePaths source.schema, passesTests tests row = true →
        ¬ ∃ predicate ∈ predicates, failsPredicate source.schema row predicate = true := by
      rintro row member passes ⟨predicate, attached, fails⟩
      rw [covered row member passes predicate attached] at fails
      cases fails
    have shown := filter_thinned selected safe
    intro rows
    simp only [Returns, exists_eq_left]
    rw [shown]
    rfl
  | join left right leftKeyIndex rightKeyIndex joinType residualPredicate ihLeft ihRight =>
    obtain ⟨left', leftRan, right', rightRan, rfl⟩ := by
      simpa [annotateScan, Option.bind_eq_some_iff] using ran
    have leftSame := sameShown_nil.mp (ihLeft leftRan covered.1 selected.1)
    have rightSame := sameShown_nil.mp (ihRight rightRan covered.2 selected.2)
    have width : right'.width = right.width := congrArg List.length (outputSchema_annotateScan rightRan)
    intro shown
    simp only [Returns, leftSame, rightSame, width]
  | filter child predicate hypothesis =>
    obtain ⟨child', childRan, rfl⟩ := Option.map_eq_some_iff.mp ran
    by_cases overAggregate : child.isAggregate = true
    · simp only [Covered, overAggregate, if_true] at covered childRan
      exact sameShown_operator (hypothesis childRan covered selected) (fun _ _ => filter_filterRows_grouped)
    · simp only [Covered, overAggregate, if_false, Bool.false_eq_true] at covered childRan
      exact sameShown_operator (hypothesis childRan covered selected) (fun _ _ => filter_filterRows)
  | projection child items hypothesis =>
    obtain ⟨child', childRan, rfl⟩ := Option.map_eq_some_iff.mp ran
    exact sameShown_operator (hypothesis childRan covered selected) (fun _ _ => filter_projectRows)
  | aggregate child groupBy aggregates hypothesis =>
    obtain ⟨child', childRan, rfl⟩ := Option.map_eq_some_iff.mp ran
    exact sameShown_permuted (hypothesis childRan covered selected) (fun _ _ => filter_aggregateRows aggregates)
  | sort child keys hypothesis =>
    obtain ⟨child', childRan, rfl⟩ := Option.map_eq_some_iff.mp ran
    refine sameShown_operator (hypothesis childRan covered selected) (fun input other same => ?_)
    rw [filter_sortRows, filter_sortRows, same]
  | limit child limit hypothesis =>
    obtain ⟨child', childRan, rfl⟩ := Option.map_eq_some_iff.mp ran
    -- Below a limit every row counts, so the tests are forgotten and the inputs are the same.
    refine sameShown_operator (hypothesis childRan covered selected) (fun input other same => ?_)
    rw [filter_noTests, filter_noTests] at same
    rw [same]

/-- An optimized plan over the selected row groups may return exactly what the rewritten plan may return over whole
tables. -/
theorem returns_scanned {plan annotated : LogicalPlan} (ran : optimize plan = some annotated)
    (covered : Covered tables (rewritePlan plan) [] []) (selected : SelectsRightly tables reads annotated)
    (result : List Row) : Returns reads annotated result ↔ Returns tables (rewritePlan plan) result :=
  sameShown_nil.mp (sameShown_annotateScan ran covered selected) result

/-- The same of the optimized plan over whole tables. -/
theorem returns_selected {plan annotated : LogicalPlan} (ran : optimize plan = some annotated)
    (covered : Covered tables (rewritePlan plan) [] []) (selected : SelectsRightly tables reads annotated)
    (result : List Row) : Returns reads annotated result ↔ Returns tables annotated result := by
  rw [returns_scanned ran covered selected,
    returns_scanned ran covered (selectsRightly_reads tables annotated)]

end Plans

/-! ## Row groups -/

/-- The value of a row in the column of a name; a row has no value under other names. -/
def columnNamed (schema : Schema) (row : Row) (name : String) : Value :=
  match schema.findIdx? (fun field => field.name == name) with
  | some index => row.getD index .raised
  | none => .null

/-- A table consists of the row groups of its files, whose statistics bound their rows and are about columns of
the table. -/
structure StoredAs (tables : Tables) (stored : StoredTables) (source : LogicalScan) (files : List ResolvedFile) :
    Prop where
  contents : tables.contents source.sourcePaths source.schema =
    files.flatMap (fun file => file.metadata.rowGroups.flatMap (fun group =>
      stored.rowGroup source.sourcePaths source.schema file.metadata.path group.index))
  bounded : ∀ file ∈ files, ∀ group ∈ file.metadata.rowGroups,
    ∀ row ∈ stored.rowGroup source.sourcePaths source.schema file.metadata.path group.index,
      RowBounded group (columnNamed source.schema row)
  named : ∀ file ∈ files, ∀ group ∈ file.metadata.rowGroups, ∀ name, (group.statisticsOf name).isSome = true →
    (source.schema.findIdx? (fun field => field.name == name)).isSome = true

section RowGroups

variable {tables : Tables} {stored : StoredTables} {source : LogicalScan} {group : RowGroupMetadata}

/-- Every row of a row group with a rightly refuted predicate fails that predicate. -/
theorem fails_of_rightlyRefuted {predicate : PushablePredicate} {row : Row}
    (refuted : RightlyRefuted group predicate) (bounded : RowBounded group (columnNamed source.schema row))
    (named : ∀ name, (group.statisticsOf name).isSome = true →
      (source.schema.findIdx? (fun field => field.name == name)).isSome = true) :
    failsPredicate source.schema row predicate = true := by
  obtain ⟨stats, recorded, proven, right⟩ := refuted
  have hasMinMax := ((predicateProvesEmpty_isSome_iff predicate stats).mp proven).1
  have notHolds := not_predicateHolds_of_refuted proven (bounded _ stats recorded hasMinMax) right
  obtain ⟨index, found⟩ := Option.isSome_iff_exists.mp (named predicate.columnName (by rw [recorded]; rfl))
  rw [columnNamed, found] at notHolds
  simpa [failsPredicate, found] using notHolds

/-- The row groups of a file that are selected leave out only rows that fail a predicate. -/
theorem thinned_rowGroups {file : FileMetadata} {predicates : List PushablePredicate} {rows : Nat → List Row}
    (judged : Judged file predicates) {fails : Row → Prop}
    (failing : ∀ group ∈ file.rowGroups, ∀ predicate ∈ predicates, RightlyRefuted group predicate →
      ∀ row ∈ rows group.index, fails row) :
    Thinned fails (file.rowGroups.flatMap (fun group => rows group.index))
      ((evaluatePruning file predicates).selectedRowGroups.flatMap rows) := by
  have selected : (evaluatePruning file predicates).selectedRowGroups.flatMap rows =
      file.rowGroups.flatMap (fun group => if (skipReason group predicates).isNone then rows group.index else []) := by
    rw [evaluatePruning, List.flatMap_map]
    exact flatMap_filter _ _ _
  rw [selected]
  refine thinned_flatMap (fun group member => ?_)
  split
  · exact thinned_refl _ _
  · rename_i skipped
    obtain ⟨predicate, chosen, refuted⟩ := judged group member (by simpa [Option.isSome_iff_ne_none] using skipped)
    exact thinned_nil (failing group member predicate chosen refuted)

/-- A scan that reads a column of files whose row groups are pruned rightly leaves out only failing rows. -/
theorem leavesOutFailing_of_judged {files : ResolvedFiles} (storedAs : StoredAs tables stored source (files source))
    (reads : (convertScan files source).readsColumn = true)
    (judged : ∀ file ∈ files source, Judged file.metadata source.pushablePredicates) :
    LeavesOutFailing tables source ((scanned files stored).rows source) := by
  have fragments : (scanned files stored).rows source = (files source).flatMap (fun file =>
      (evaluatePruning file.metadata source.pushablePredicates).selectedRowGroups.flatMap
        (stored.rowGroup source.sourcePaths source.schema file.metadata.path)) := by
    simp only [scanned, scannedRows, reads, if_true]
    simp only [selectedRows, convertScan, scanFragments, flatMap_filterMap]
    refine List.flatMap_congr (fun file _ => ?_)
    split
    · rename_i skipped
      rw [List.isEmpty_iff.mp (Bool.and_eq_true_iff.mp skipped).1]
      rfl
    · rfl
  rw [LeavesOutFailing, storedAs.contents, fragments]
  refine thinned_flatMap (fun file inFiles => thinned_rowGroups (judged file inFiles) ?_)
  intro group member predicate chosen refuted row inGroup
  exact ⟨predicate, chosen, fails_of_rightlyRefuted refuted (storedAs.bounded file inFiles group member row inGroup)
    (storedAs.named file inFiles group member)⟩

end RowGroups

end KernelLake.ScanSelection
