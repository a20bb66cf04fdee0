import KernelLake.Pushdown
import KernelLake.RewriteProofs
import KernelLake.SortProofs

/-!
When rows that fail a pushed predicate may be left out of a scan.

A predicate travels to a scan by its column's name alone. Here it travels together with the
comparison it came from, which is followed down the plan by position: through filters and sorts,
through projections and grouping keys that pass a column on, and not below a limit. Pruning is then
safe if, at every scan, the comparisons that arrive imply the predicates that arrive.
-/

namespace KernelLake.ScanAnnotation

open KernelLake.Types KernelLake.Expressions KernelLake.Evaluation KernelLake.LogicalPlans
open KernelLake.PlanSemantics KernelLake.Optimizer KernelLake.PruningProofs KernelLake.Pushdown
open KernelLake.RewriteProofs KernelLake.SortProofs KernelLake.Library.Relations

/-! ## Pruned scans -/

/-- A row fails a pushed predicate: the scan has the named column and the comparison is not `TRUE`. -/
def failsPredicate (schema : Schema) (row : Row) (predicate : PushablePredicate) : Bool :=
  (schema.findIdx? (fun field => field.name == predicate.columnName)).any
    (fun index => !decide (predicateHolds predicate (row.getD index .raised)))

/-- The results a plan may return when every scan leaves out some rows that fail one of its pushed
predicates, each scan on its own. -/
def PrunedRows (tables : Tables) : LogicalPlan → List Row → Prop
  | .scan source, result =>
    Thinned (fun row => ∃ predicate ∈ source.pushablePredicates,
        failsPredicate source.schema row predicate = true)
      (tables.contents source.sourcePaths source.schema) result
  | .join left right leftKeyIndex rightKeyIndex joinType residualPredicate, result =>
    ∃ leftRows rightRows, PrunedRows tables left leftRows ∧ PrunedRows tables right rightRows ∧
      result = joinRows (joinMatches leftKeyIndex rightKeyIndex residualPredicate) joinType right.width
        leftRows rightRows
  | .filter child predicate, result =>
    ∃ input, PrunedRows tables child input ∧ result = filterRows predicate input
  | .projection child items, result =>
    ∃ input, PrunedRows tables child input ∧ result = input.map (projectRow items)
  | .aggregate child groupBy aggregates, result =>
    ∃ input, PrunedRows tables child input ∧ result = aggregateRows groupBy aggregates input
  | .sort child keys, result => ∃ input, PrunedRows tables child input ∧ result = sortRows keys input
  | .limit child limit, result =>
    ∃ input, PrunedRows tables child input ∧ result = input.take limit.toNat

/-! ## Comparisons on their way down -/

/-- The value of an expression from the value under its casts. -/
def applyCasts : Expression → Value → Value
  | .cast operand type, value => castValue type (applyCasts operand value)
  | _, value => value

/-- A comparison that every surviving row satisfies, as a test of one column. -/
structure ColumnTest where
  position : Nat
  check : Value → Bool

def ColumnTest.passes (test : ColumnTest) (row : Row) : Bool :=
  test.check (row.getD test.position .raised)

def passesTests (tests : List ColumnTest) (row : Row) : Bool :=
  tests.all (fun test => test.passes row)

/-- The comparison a predicate was extracted from, casts included. -/
def Extraction.test (extraction : Extraction) : ColumnTest where
  position := extraction.columnIndex
  check value :=
    ((compareValues (applyCasts extraction.columnSide value)
      (applyCasts extraction.literalSide
        (literalValue extraction.predicate.literal extraction.predicate.literalType))).truth
      extraction.predicate.op).isTrue

def extractedTests (predicate : Expression) : List ColumnTest :=
  (collectExtractions predicate).map Extraction.test

/-- A test of an output column as a test of the input column it passes on. -/
def retraced (items : List NamedExpression) (test : ColumnTest) : Option ColumnTest :=
  match items[test.position]? with
  | some ⟨.column _ columnIndex _, _⟩ => some { test with position := columnIndex }
  | _ => none

/-- At every scan, a table row that passes the arriving tests satisfies the arriving predicates. The
predicates travel as `annotateScan` sends them. -/
def Covered (tables : Tables) : LogicalPlan → List ColumnTest → List PushablePredicate → Prop
  | .scan source, tests, predicates =>
    ∀ row ∈ tables.contents source.sourcePaths source.schema, passesTests tests row = true →
      ∀ predicate ∈ predicates, failsPredicate source.schema row predicate = false
  | .join left right _ _ _ _, _, _ => Covered tables left [] [] ∧ Covered tables right [] []
  | .filter child predicate, tests, predicates =>
    if child.isAggregate then Covered tables child tests predicates
    else Covered tables child (tests ++ extractedTests predicate)
      (predicates ++ collectPushablePredicates predicate)
  | .projection child items, tests, predicates =>
    Covered tables child (tests.filterMap (retraced items)) predicates
  | .aggregate child groupBy _, tests, predicates =>
    Covered tables child (tests.filterMap (retraced groupBy)) predicates
  | .sort child _, tests, predicates => Covered tables child tests predicates
  | .limit child _, _, predicates => Covered tables child [] predicates

/-! ## What survives each operator -/

theorem eval_applyCasts (expression : Expression) (row : Row) :
    eval expression row = applyCasts expression (eval (unwrapCast expression) row) := by
  fun_induction unwrapCast expression with
  | case1 operand type hypothesis => simp only [evalIn, applyCasts, hypothesis]
  | case2 expression noCast =>
    cases expression with
    | cast operand type => exact absurd rfl (noCast operand type)
    | _ => rfl

theorem extractComparison_sides {op : BinaryOperator} {left right : Expression}
    {extraction : Extraction} (extracted : extractComparison op left right = some extraction) :
    (∃ name type, unwrapCast extraction.columnSide = .column name extraction.columnIndex type) ∧
      unwrapCast extraction.literalSide =
        .literal extraction.predicate.literal extraction.predicate.literalType := by
  unfold extractComparison at extracted
  split at extracted
  · rename_i columnShape literalShape
    obtain rfl := Option.some.inj extracted
    exact ⟨⟨_, _, columnShape⟩, literalShape⟩
  · rename_i literalShape columnShape
    obtain rfl := Option.some.inj extracted
    exact ⟨⟨_, _, columnShape⟩, literalShape⟩
  · cases extracted

theorem collectExtractions_sides {predicate : Expression} {extraction : Extraction}
    (extracted : extraction ∈ collectExtractions predicate) :
    (∃ name type, unwrapCast extraction.columnSide = .column name extraction.columnIndex type) ∧
      unwrapCast extraction.literalSide =
        .literal extraction.predicate.literal extraction.predicate.literalType := by
  fun_induction collectExtractions predicate with
  | case1 left right type ihLeft ihRight =>
    rcases List.mem_append.mp extracted with inLeft | inRight
    · exact ihLeft inLeft
    · exact ihRight inRight
  | case2 op left right type notAnd comparison =>
    exact extractComparison_sides (Option.mem_toList.mp extracted)
  | case3 op left right type notAnd comparison => cases extracted
  | case4 predicate noAnd noBinary => cases extracted

/-- A row that passes a filter passes the tests extracted from it. -/
theorem passesTests_extracted {predicate : Expression} {row : Row}
    (passes : (eval predicate row).isTrue = true) : passesTests (extractedTests predicate) row = true := by
  refine List.all_eq_true.mpr (fun test member => ?_)
  obtain ⟨extraction, extracted, rfl⟩ := List.mem_map.mp member
  obtain ⟨⟨name, type, columnShape⟩, literalShape⟩ := collectExtractions_sides extracted
  have held := extraction_true (of_decide_eq_true passes) extracted
  rw [eval_applyCasts, columnShape, eval_applyCasts extraction.literalSide, literalShape] at held
  simp only [ColumnTest.passes, Extraction.test, Value.isTrue, decide_eq_true_eq]
  exact held

theorem passesTests_append (first second : List ColumnTest) (row : Row) :
    passesTests (first ++ second) row = (passesTests first row && passesTests second row) :=
  List.all_append

/-- A test of a passed-on column says the same of the input row. -/
theorem passes_retraced {items : List NamedExpression} {test inner : ColumnTest}
    (traced : retraced items test = some inner) (row : Row) :
    inner.passes row = test.passes (projectRow items row) := by
  unfold retraced at traced
  split at traced
  · rename_i name columnIndex type label found
    obtain rfl := Option.some.inj traced
    simp [ColumnTest.passes, projectRow, List.getD_eq_getElem?_getD, found, evalIn]
  · cases traced

theorem passesTests_retraced {items : List NamedExpression} {tests : List ColumnTest} {row : Row}
    (passes : passesTests tests (projectRow items row) = true) :
    passesTests (tests.filterMap (retraced items)) row = true := by
  refine List.all_eq_true.mpr (fun inner member => ?_)
  obtain ⟨test, original, traced⟩ := List.mem_filterMap.mp member
  rw [passes_retraced traced]
  exact List.all_eq_true.mp passes test original

/-- The tests that a grouping key decides. -/
def passesKey (groupBy : List NamedExpression) (tests : List ColumnTest) (key : Row) : Bool :=
  tests.all (fun test => (retraced groupBy test).isNone || test.passes key)

theorem passesKey_projectRow (groupBy : List NamedExpression) (tests : List ColumnTest) (row : Row) :
    passesKey groupBy tests (projectRow groupBy row) =
      passesTests (tests.filterMap (retraced groupBy)) row := by
  induction tests with
  | nil => rfl
  | cons test tests hypothesis =>
    simp only [passesKey, passesTests, List.all_cons, List.filterMap_cons] at hypothesis ⊢
    cases traced : retraced groupBy test with
    | none => simp [hypothesis]
    | some inner => simp [hypothesis, passes_retraced traced]

/-- The output row of a group passes a test of a key column exactly when the key does. -/
theorem passesKey_of_output {groupBy aggregates : List NamedExpression} {tests : List ColumnTest}
    {group : Row × List Row} (width : group.1.length = groupBy.length)
    (passes : passesTests tests (groupOutput aggregates group) = true) :
    passesKey groupBy tests group.1 = true := by
  refine List.all_eq_true.mpr (fun test member => ?_)
  cases traced : retraced groupBy test with
  | none => rfl
  | some inner =>
    have inKey : test.position < group.1.length := by
      rw [width]
      unfold retraced at traced
      split at traced
      · rename_i found
        exact (List.getElem?_eq_some_iff.mp found).1
      · cases traced
    have passed := List.all_eq_true.mp passes test member
    simpa [ColumnTest.passes, groupOutput, List.getD_eq_getElem?_getD, List.getElem?_append_left inKey]
      using passed

theorem filter_noTests (input : List Row) : input.filter (passesTests []) = input :=
  List.filter_eq_self.mpr (fun _ _ => rfl)

/-- Groups whose keys pass do not depend on rows whose keys do not. -/
theorem filter_aggregateRows {groupBy : List NamedExpression} (aggregates : List NamedExpression)
    {tests : List ColumnTest} {first second : List Row}
    (same : first.filter (passesTests (tests.filterMap (retraced groupBy))) =
      second.filter (passesTests (tests.filterMap (retraced groupBy)))) :
    (aggregateRows groupBy aggregates first).filter (passesTests tests) =
      (aggregateRows groupBy aggregates second).filter (passesTests tests) := by
  by_cases empty : groupBy.isEmpty = true
  · have untraced : tests.filterMap (retraced groupBy) = [] := by
      obtain rfl := List.isEmpty_iff.mp empty
      exact List.filterMap_eq_nil_iff.mpr (fun test _ => rfl)
    rw [untraced, filter_noTests, filter_noTests] at same
    rw [same]
  · have implies (input : List Row) : ∀ group ∈ aggregateGroups groupBy input,
        passesTests tests (groupOutput aggregates group) = true →
          passesKey groupBy tests group.1 = true :=
      fun group member => passesKey_of_output (length_groupKey member)
    simp only [aggregateRows, List.filter_map]
    congr 1
    refine filter_eq_of_implies (implies first) (implies second) ?_
    simp only [aggregateGroups, empty, if_false, Bool.false_eq_true]
    rw [← groupRows_filter, ← groupRows_filter]
    simp only [passesKey_projectRow]
    exact congrArg _ same

/-- What passes a filter and the tests does not depend on rows that fail its comparisons or the tests. -/
theorem filter_filterRows {predicate : Expression} {tests : List ColumnTest} {first second : List Row}
    (same : first.filter (passesTests (tests ++ extractedTests predicate)) =
      second.filter (passesTests (tests ++ extractedTests predicate))) :
    (filterRows predicate first).filter (passesTests tests) =
      (filterRows predicate second).filter (passesTests tests) := by
  simp only [filterRows, List.filter_filter]
  refine filter_eq_of_implies ?_ ?_ same
  all_goals
    intro row _ both
    obtain ⟨passes, kept⟩ := Bool.and_eq_true_iff.mp both
    rw [passesTests_append, passes, passesTests_extracted kept]
    rfl

/-- Over an aggregation only the tests count. -/
theorem filter_filterRows_grouped {predicate : Expression} {tests : List ColumnTest} {first second : List Row}
    (same : first.filter (passesTests tests) = second.filter (passesTests tests)) :
    (filterRows predicate first).filter (passesTests tests) =
      (filterRows predicate second).filter (passesTests tests) := by
  simp only [filterRows, List.filter_filter]
  refine filter_eq_of_implies ?_ ?_ same
  all_goals
    intro row _ both
    exact (Bool.and_eq_true_iff.mp both).1

theorem filter_projectRows {items : List NamedExpression} {tests : List ColumnTest} {first second : List Row}
    (same : first.filter (passesTests (tests.filterMap (retraced items))) =
      second.filter (passesTests (tests.filterMap (retraced items)))) :
    (first.map (projectRow items)).filter (passesTests tests) =
      (second.map (projectRow items)).filter (passesTests tests) := by
  simp only [List.filter_map]
  congr 1
  refine filter_eq_of_implies ?_ ?_ same
  all_goals
    intro row _ passes
    exact passesTests_retraced passes

theorem outputSchema_annotateScan {plan annotated : LogicalPlan} {required : List Nat}
    {predicates : List PushablePredicate} (ran : annotateScan required predicates plan = some annotated) :
    annotated.outputSchema = plan.outputSchema := by
  induction plan generalizing required predicates annotated with
  | scan source =>
    obtain ⟨names, _, rfl⟩ := Option.map_eq_some_iff.mp ran
    rfl
  | join left right leftKeyIndex rightKeyIndex joinType residualPredicate ihLeft ihRight =>
    obtain ⟨left', leftRan, right', rightRan, rfl⟩ := by
      simpa [annotateScan, Option.bind_eq_some_iff] using ran
    simp only [LogicalPlan.outputSchema, ihLeft leftRan, ihRight rightRan]
  | filter child predicate hypothesis =>
    obtain ⟨child', childRan, rfl⟩ := Option.map_eq_some_iff.mp ran
    simp only [LogicalPlan.outputSchema, hypothesis childRan]
  | projection child items hypothesis =>
    obtain ⟨child', childRan, rfl⟩ := Option.map_eq_some_iff.mp ran
    rfl
  | aggregate child groupBy aggregates hypothesis =>
    obtain ⟨child', childRan, rfl⟩ := Option.map_eq_some_iff.mp ran
    rfl
  | sort child keys hypothesis =>
    obtain ⟨child', childRan, rfl⟩ := Option.map_eq_some_iff.mp ran
    simp only [LogicalPlan.outputSchema, hypothesis childRan]
  | limit child limit hypothesis =>
    obtain ⟨child', childRan, rfl⟩ := Option.map_eq_some_iff.mp ran
    simp only [LogicalPlan.outputSchema, hypothesis childRan]

/-- Pruning changes no row that passes the tests on their way down. -/
theorem filter_prunedRows {tables : Tables} {plan annotated : LogicalPlan} {required : List Nat}
    {tests : List ColumnTest} {predicates : List PushablePredicate} {result : List Row}
    (ran : annotateScan required predicates plan = some annotated)
    (covered : Covered tables plan tests predicates) (pruned : PrunedRows tables annotated result) :
    result.filter (passesTests tests) = (rows tables plan).filter (passesTests tests) := by
  induction plan generalizing required tests predicates annotated result with
  | scan source =>
    obtain ⟨names, _, rfl⟩ := Option.map_eq_some_iff.mp ran
    refine filter_thinned pruned (fun row member passes failed => ?_)
    obtain ⟨predicate, attached, fails⟩ := failed
    rw [covered row member passes predicate attached] at fails
    cases fails
  | join left right leftKeyIndex rightKeyIndex joinType residualPredicate ihLeft ihRight =>
    obtain ⟨left', leftRan, right', rightRan, rfl⟩ := by
      simpa [annotateScan, Option.bind_eq_some_iff] using ran
    obtain ⟨leftRows, rightRows, leftPruned, rightPruned, rfl⟩ := pruned
    have leftSame := ihLeft leftRan covered.1 leftPruned
    have rightSame := ihRight rightRan covered.2 rightPruned
    rw [filter_noTests, filter_noTests] at leftSame rightSame
    simp only [rows, LogicalPlan.width, outputSchema_annotateScan rightRan, leftSame, rightSame]
  | filter child predicate hypothesis =>
    obtain ⟨child', childRan, rfl⟩ := Option.map_eq_some_iff.mp ran
    obtain ⟨input, inputPruned, rfl⟩ := pruned
    by_cases overAggregate : child.isAggregate = true
    · simp only [Covered, overAggregate, if_true] at covered childRan
      exact filter_filterRows_grouped (hypothesis childRan covered inputPruned)
    · simp only [Covered, overAggregate, if_false, Bool.false_eq_true] at covered childRan
      exact filter_filterRows (hypothesis childRan covered inputPruned)
  | projection child items hypothesis =>
    obtain ⟨child', childRan, rfl⟩ := Option.map_eq_some_iff.mp ran
    obtain ⟨input, inputPruned, rfl⟩ := pruned
    exact filter_projectRows (hypothesis childRan covered inputPruned)
  | aggregate child groupBy aggregates hypothesis =>
    obtain ⟨child', childRan, rfl⟩ := Option.map_eq_some_iff.mp ran
    obtain ⟨input, inputPruned, rfl⟩ := pruned
    exact filter_aggregateRows aggregates (hypothesis childRan covered inputPruned)
  | sort child keys hypothesis =>
    obtain ⟨child', childRan, rfl⟩ := Option.map_eq_some_iff.mp ran
    obtain ⟨input, inputPruned, rfl⟩ := pruned
    simp only [rows, filter_sortRows]
    exact congrArg _ (hypothesis childRan covered inputPruned)
  | limit child limit hypothesis =>
    obtain ⟨child', childRan, rfl⟩ := Option.map_eq_some_iff.mp ran
    obtain ⟨input, inputPruned, rfl⟩ := pruned
    -- Below a limit every row counts, so the tests are forgotten and the inputs are equal.
    have same := hypothesis childRan covered inputPruned
    rw [filter_noTests, filter_noTests] at same
    simp only [rows, same]

/-- Leaving out rows that fail pushed predicates changes no result, if the comparisons that arrive at
each scan imply the predicates that do. -/
theorem optimize_pruning_sound {tables : Tables} {plan annotated : LogicalPlan} {result : List Row}
    (ran : optimize plan = some annotated) (covered : Covered tables (rewritePlan plan) [] [])
    (pruned : PrunedRows tables annotated result) : result = rows tables plan := by
  have same := filter_prunedRows ran covered pruned
  rw [filter_noTests, filter_noTests] at same
  rw [same, rows_rewritePlan]

def pairSchema : Schema := [⟨"a", int64Type⟩, ⟨"b", int64Type⟩]

def pairScan : LogicalScan := .make ["t.parquet"] pairSchema

def pairTables : Tables :=
  Tables.ofContents [⟨["t.parquet"], pairSchema, [[.int 1, .int 10], [.int 7, .int 20]], by decide⟩]

/-- `SELECT * FROM (SELECT b AS first, a FROM t) AS d WHERE a > 5` -/
def reorderedPlan : LogicalPlan :=
  .projection
    (.filter
      (.projection (.scan pairScan)
        [⟨.column "b" 1 int64Type, "first"⟩, ⟨.column "a" 0 int64Type, "a"⟩])
      (.binary .greater (.column "a" 1 int64Type) (makeInt64 5) booleanType))
    [⟨.column "first" 0 int64Type, "first"⟩, ⟨.column "a" 1 int64Type, "a"⟩]

/-- `SELECT * FROM (SELECT a FROM t LIMIT 1) AS d WHERE a > 5` -/
def limitedPlan : LogicalPlan :=
  .projection
    (.filter (.limit (.projection (.scan pairScan) [⟨.column "a" 0 int64Type, "a"⟩]) 1)
      (.binary .greater (.column "a" 0 int64Type) (makeInt64 5) booleanType))
    [⟨.column "a" 0 int64Type, "a"⟩]

theorem optimize_pruning_sound_reordered :
    ∃ annotated result, optimize reorderedPlan = some annotated ∧
      PrunedRows pairTables annotated result ∧ result = rows pairTables reorderedPlan := by
  -- The file's first row fails `a > 5` and is left out.
  obtain ⟨annotated, ran, pruned⟩ : ∃ annotated, optimize reorderedPlan = some annotated ∧
      PrunedRows pairTables annotated [[.int 20, .int 7]] :=
    ⟨_, rfl, _, ⟨_, ⟨[[.int 7, .int 20]],
      .drop ⟨_, List.mem_singleton.mpr rfl, by decide +kernel⟩ (.keep _ .done), rfl⟩, rfl⟩, rfl⟩
  refine ⟨annotated, _, ran, pruned, optimize_pruning_sound ran ?_ pruned⟩
  have unchanged : rewritePlan reorderedPlan = reorderedPlan := by decide +kernel
  rw [unchanged]
  change ∀ row ∈ pairTables.contents ["t.parquet"] pairSchema, _ → _
  decide +kernel

/-- Without its first row, which fails `a > 5`, the limited subquery returns its second one. -/
theorem optimize_pruning_unsound :
    ¬ ∀ (tables : Tables) (plan annotated : LogicalPlan) (result : List Row),
      optimize plan = some annotated → PrunedRows tables annotated result →
        result = rows tables plan := by
  intro sound
  have changed := sound pairTables limitedPlan _ [[.int 7]] rfl
    ⟨[[.int 7]], ⟨[[.int 7]], ⟨[[.int 7, .int 20]],
      ⟨[[.int 7, .int 20]], .drop ⟨_, List.mem_singleton.mpr rfl, by decide +kernel⟩ (.keep _ .done), rfl⟩,
      rfl⟩, rfl⟩, rfl⟩
  revert changed
  decide +kernel

end KernelLake.ScanAnnotation
