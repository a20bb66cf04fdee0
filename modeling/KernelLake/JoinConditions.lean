import KernelLake.BoundQueryTypes
import KernelLake.PlannedRows
import KernelLake.Pushdown

/-!
What the parts of an `ON` condition are together.

The binder takes an `ON` condition apart into one key equality, a condition on the new source alone and, for semi
and anti joins, a condition on both sides. A pair of rows satisfies the condition if and only if it satisfies the
parts, and a join that applies each part in its own place has the rows of a join on the whole condition.
-/

namespace KernelLake.JoinConditions

open KernelLake.Types KernelLake.Expressions KernelLake.Evaluation KernelLake.LogicalPlans KernelLake.SqlAst
open KernelLake.Binder KernelLake.QueryBinding KernelLake.QueryBindingProofs KernelLake.JoinBinding
open KernelLake.LogicalPlanner KernelLake.PlanSemantics KernelLake.PlannedRows KernelLake.ColumnProofs
open KernelLake.Optimizer KernelLake.Pushdown KernelLake.Library.Relations KernelLake.Library.Results

/-! ## Conditions on pairs of rows -/

/-- Whether an `ON` condition is `TRUE` of a left row and a right row. -/
def holdsOn (condition : Expression) (left right : Row) : Bool :=
  (eval condition (left ++ right)).isTrue

/-- Whether a condition is `TRUE` of a row, if there is one. -/
def holdsIf (condition : Option Expression) (row : Row) : Bool :=
  condition.all (fun predicate => (eval predicate row).isTrue)

theorem holdsIf_eq_true {condition : Option Expression} {row : Row} :
    holdsIf condition row = true ↔ ∀ predicate ∈ condition, eval predicate row = .bool true := by
  cases condition with
  | none => simp [holdsIf]
  | some predicate => simp [holdsIf, Value.isTrue]

theorem holdsIf_andAlso (sofar : Option Expression) (conjunct : Expression) (row : Row) :
    holdsIf (andAlso sofar conjunct) row = (holdsIf sofar row && (eval conjunct row).isTrue) := by
  cases sofar with
  | none => rfl
  | some previous => simp [holdsIf, andAlso, evalIn, binaryValue]

/-! ## The key equality -/

theorem isTrue_equal (left right : Value) :
    ((compareValues left right).truth .equal).isTrue = decide (compareValues left right = .ordered .eq) := by
  cases compareValues left right with
  | ordered ordering => cases ordering <;> rfl
  | unordered => rfl
  | unknown => rfl
  | failed => rfl

theorem compareValues_eq_comm (left right : Value) :
    compareValues left right = .ordered .eq ↔ compareValues right left = .ordered .eq := by
  rw [compareValues_swap left right]
  cases compareValues left right with
  | ordered ordering => cases ordering <;> simp [Comparison.swap]
  | unordered => simp [Comparison.swap]
  | unknown => simp [Comparison.swap]
  | failed => simp [Comparison.swap]

theorem columnValue_left {left : Row} {index : Nat} (within : index < left.length) (right : Row) :
    (left ++ right).getD index .raised = left.getD index .raised := by
  rw [List.getD_append _ _ _ _ within]

theorem columnValue_right {left : Row} {index : Nat} (beyond : left.length ≤ index) (right : Row) :
    (left ++ right).getD index .raised = right.getD (index - left.length) .raised := by
  rw [List.getD_append_right _ _ _ _ beyond]

/-- The key equality holds of rows whose keys are equal and not null. -/
theorem holdsOn_key {left : Row} {limit : Nat} {conjunct : Expression} {key : Nat × Nat}
    (isKey : keyCandidate left.length limit conjunct = some key) (right : Row) :
    holdsOn conjunct left right = joinMatches key.1 key.2 none left right := by
  unfold keyCandidate at isKey
  split at isKey
  · rename_i name first firstType name' second secondType type
    change ((compareValues ((left ++ right).getD first .raised) ((left ++ right).getD second .raised)).truth
      .equal).isTrue = _
    rw [isTrue_equal, joinMatches, Bool.and_true]
    split at isKey
    · rename_i bounds
      obtain rfl := Option.some.inj isKey
      rw [columnValue_left bounds.1, columnValue_right bounds.2.1]
    · split at isKey
      · rename_i bounds
        obtain rfl := Option.some.inj isKey
        rw [columnValue_left bounds.1, columnValue_right bounds.2.1]
        exact decide_eq_decide.mpr (compareValues_eq_comm _ _)
      · cases isKey
  · cases isKey

theorem joinMatches_residual (leftKeyIndex rightKeyIndex : Nat) (residual : Option Expression) (left right : Row) :
    joinMatches leftKeyIndex rightKeyIndex residual left right =
      (joinMatches leftKeyIndex rightKeyIndex none left right && holdsIf residual (left ++ right)) := by
  cases residual with
  | none => exact (Bool.and_true _).symm
  | some predicate => simp only [joinMatches, Bool.and_true, holdsIf, Option.all_some]

/-- The key that was found is that of the conjunct at its place. -/
theorem findKey_place {candidate : Expression → Option (Nat × Nat)} {position : Nat}
    {found result : Option (Nat × Nat × Nat)} {conjuncts : List Expression}
    (ran : findKey candidate position found conjuncts = .ok result) :
    result = found ∨ ∃ before conjunct after key, conjuncts = before ++ conjunct :: after ∧
      result = some (position + before.length, key) ∧ candidate conjunct = some key := by
  induction conjuncts generalizing position found with
  | nil => exact .inl (pure_eq_ok.mp ran).symm
  | cons conjunct rest hypothesis =>
    unfold findKey at ran
    cases isKey : candidate conjunct with
    | none =>
      rw [isKey] at ran
      rcases hypothesis ran with same | ⟨before, other, after, key, rfl, isResult, isOther⟩
      · exact .inl same
      · refine .inr ⟨conjunct :: before, other, after, key, rfl, ?_, isOther⟩
        rw [isResult, List.length_cons, Nat.add_assoc, Nat.add_comm 1]
    | some key =>
      simp only [isKey] at ran
      split at ran
      · cases ran
      · rcases hypothesis ran with same | ⟨before, other, after, key', rfl, isResult, isOther⟩
        · exact .inr ⟨[], conjunct, rest, key, rfl, same, isKey⟩
        · refine .inr ⟨conjunct :: before, other, after, key', rfl, ?_, isOther⟩
          rw [isResult, List.length_cons, Nat.add_assoc, Nat.add_comm 1]

/-! ## The other conjuncts -/

/-- The conjuncts hold of a pair of rows if the two conditions that they are split into do. -/
theorem splitConjuncts_exact {rightOnly : Expression → Bool} {rebase : Expression → Expression}
    {allowResidual : Bool} {left right : Row} {conjuncts : List Expression}
    (moved : ∀ conjunct ∈ conjuncts, rightOnly conjunct = true →
      eval (rebase conjunct) right = eval conjunct (left ++ right))
    {prefilter residual : Option Expression} {result : Option Expression × Option Expression}
    (ran : splitConjuncts rightOnly rebase allowResidual prefilter residual conjuncts = .ok result) :
    (holdsIf result.1 right && holdsIf result.2 (left ++ right)) =
      (holdsIf prefilter right && holdsIf residual (left ++ right) && passesAll conjuncts (left ++ right)) := by
  induction conjuncts generalizing prefilter residual with
  | nil =>
    obtain rfl := pure_eq_ok.mp ran
    exact (Bool.and_true _).symm
  | cons conjunct rest hypothesis =>
    obtain ⟨movedFirst, movedRest⟩ := List.forall_mem_cons.mp moved
    unfold splitConjuncts at ran
    split at ran
    · rename_i isRight
      rw [hypothesis movedRest ran, holdsIf_andAlso, movedFirst isRight, passesAll, passesAll, List.all_cons]
      ac_rfl
    · split at ran
      · cases ran
      · rw [hypothesis movedRest ran, holdsIf_andAlso, passesAll, passesAll, List.all_cons]
        ac_rfl

/-- Without leave for a condition on both sides there is none. -/
theorem splitConjuncts_residual {rightOnly : Expression → Bool} {rebase : Expression → Expression}
    {conjuncts : List Expression} {prefilter residual : Option Expression}
    {result : Option Expression × Option Expression}
    (ran : splitConjuncts rightOnly rebase false prefilter residual conjuncts = .ok result) :
    result.2 = residual := by
  induction conjuncts generalizing prefilter with
  | nil =>
    obtain rfl := pure_eq_ok.mp ran
    rfl
  | cons conjunct rest hypothesis =>
    unfold splitConjuncts at ran
    split at ran
    · exact hypothesis ran
    · cases ran

/-! ## The parts of a condition -/

section Parts

variable {condition : Expression} {count sourceCount : Nat} {joinType : JoinType} {keys : JoinStepKeys}
  (ran : extractJoinStepKeys condition count sourceCount joinType = .ok keys)
include ran

/-- A condition holds of a pair of rows if and only if its parts do. -/
theorem holdsOn_eq_parts {left : Row} (leftWidth : left.length = count) (right : Row) :
    holdsOn condition left right =
      (joinMatches keys.combinedKeyIndex keys.sourceKeyIndex keys.residualPredicate left right &&
        holdsIf keys.rightPrefilter right) := by
  subst leftWidth
  unfold extractJoinStepKeys at ran
  obtain ⟨found, foundRan, ran⟩ := bind_eq_ok.mp ran
  split at ran
  · cases ran
  · rename_i place combinedKeyIndex sourceKeyIndex
    simp only [bind_eq_ok, pure_eq_ok] at ran
    obtain ⟨⟨rightPrefilter, residualPredicate⟩, splitRan, rfl⟩ := ran
    rcases findKey_place foundRan with absent | ⟨before, conjunct, after, key, split, isPlace, isKey⟩
    · cases absent
    · obtain ⟨rfl, rfl⟩ := Prod.mk.inj (Option.some.inj isPlace)
      have others : (collectConjuncts condition).eraseIdx (0 + before.length) = before ++ after := by
        rw [split, Nat.zero_add, List.eraseIdx_append_of_length_le (le_refl _), Nat.sub_self]
        rfl
      rw [others] at splitRan
      have parts := @splitConjuncts_exact _ _ _ left right _ (fun other _ isRight => ?_) _ _ _ splitRan
      · rw [joinMatches_residual, ← holdsOn_key isKey, Bool.and_assoc, Bool.and_comm (holdsIf residualPredicate _),
          parts, holdsOn, ← passesAll_collectConjuncts, split]
        simp only [holdsOn, holdsIf, Option.all_none, Bool.true_and, passesAll, List.all_append, List.all_cons]
        ac_rfl
      · simp only [List.all_eq_true, Bool.and_eq_true, decide_eq_true_eq] at isRight
        exact evalIn_shiftColumns none left right other fun index member => (isRight index member).1

/-- Only a semi or an anti join has a condition on both sides. -/
theorem residual_none (keeps : keepsRight joinType = true) : keys.residualPredicate = none := by
  unfold extractJoinStepKeys at ran
  obtain ⟨found, foundRan, ran⟩ := bind_eq_ok.mp ran
  split at ran
  · cases ran
  · simp only [bind_eq_ok, pure_eq_ok, keeps, Bool.not_true] at ran
    obtain ⟨result, splitRan, rfl⟩ := ran
    exact splitConjuncts_residual splitRan

end Parts

/-! ## Joins in parts -/

theorem joinRows_filter_right {on parts : Row → Row → Bool} {keep : Row → Bool} {left right : List Row}
    (same : ∀ row ∈ left, ∀ other ∈ right, on row other = (parts row other && keep other))
    (joinType : JoinType) (width : Nat) :
    joinRows parts joinType width left (right.filter keep) = joinRows on joinType width left right := by
  cases joinType with
  | inner => exact congrArg _ (innerJoin_filter_right same)
  | leftOuter => exact congrArg _ (outerJoin_filter_right same)
  | leftSemi => exact semiJoin_filter_right same
  | leftAnti => exact antiJoin_filter_right same

theorem width_filterIf (predicate : Option Expression) (plan : LogicalPlan) :
    (filterIf predicate plan).width = plan.width := by
  rw [LogicalPlan.width, outputSchema_filterIf]
  rfl

theorem width_plan (paths : List String) (input : JoinInput) : (input.plan paths).width = input.schema.length := by
  rw [LogicalPlan.width, outputSchema_plan]

/-- A planned step of a chain has the rows of the join that is written. -/
theorem rows_joinStep (tables : Tables) {plan : LogicalPlan} {condition : Expression} {sourceCount : Nat}
    {joinType : JoinType} {keys : JoinStepKeys}
    (ran : extractJoinStepKeys condition plan.width sourceCount joinType = .ok keys) (paths : List String)
    (input : JoinInput) :
    rows tables (joinStep plan ⟨paths, keys.combinedKeyIndex, keys.sourceKeyIndex, joinType, keys.rightPrefilter,
        keys.residualPredicate⟩ input) =
      joinRows (holdsOn condition) joinType input.schema.length (rows tables plan)
        (rows tables (input.plan paths)) := by
  rw [joinStep, rows, width_filterIf, width_plan, rows_filterIf, filterRowsIf_eq]
  exact joinRows_filter_right
    (fun row member other _ => holdsOn_eq_parts ran (rows_length tables plan row member) other) _ _

/-! ## Names in conditions -/

/-- The columns of a source end where the next source starts, or before. -/
theorem offsetOf_le_of_lt {sources : List JoinSource} {number place : Nat} {source : JoinSource}
    (before : number < place) (held : sources[number]? = some source) :
    offsetOf sources number + source.span ≤ offsetOf sources place := by
  induction sources generalizing number place with
  | nil => cases held
  | cons first rest hypothesis =>
    obtain ⟨place, rfl⟩ := Nat.exists_eq_succ_of_ne_zero (Nat.ne_zero_of_lt before)
    rw [Nat.succ_eq_add_one, offsetOf_succ]
    cases number with
    | zero =>
      obtain rfl := Option.some.inj held
      rw [offsetOf_zero, Nat.zero_add]
      exact Nat.le_add_right _ _
    | succ number =>
      rw [offsetOf_succ, Nat.add_assoc]
      exact Nat.add_le_add_left (hypothesis (Nat.lt_of_succ_lt_succ before) held) _

/-- A name in an `ON` condition is read in the source that it denotes, if that is the one just joined or an earlier
one that is delivered. -/
theorem eval_bindColumnRef {sources : List JoinSource} {reference : Reference} {column : Expression}
    (resolved : bindColumnRef (.join sources) reference = .ok column) :
    ∃ number position, Denotes sources reference number position ∧
      ∀ (place : Nat) (left right : Row), left.length = offsetOf sources place →
        (number = place → eval column (left ++ right) = right.getD position .raised) ∧
        (number < place → (∀ source, sources[number]? = some source → keepsRight source.joinType = true) →
          eval column (left ++ right) = left.getD (offsetOf sources number + position) .raised) := by
  obtain ⟨number, position, denotes, source, field, held, isField, rfl⟩ := bindColumnRef_denotes resolved
  refine ⟨number, position, denotes, fun place left right leftWidth => ⟨?_, fun before keeps => ?_⟩⟩
  · rintro rfl
    change (left ++ right).getD (0 + offsetOf sources number + position) .raised = _
    rw [Nat.zero_add, columnValue_right (by omega), leftWidth, Nat.add_sub_cancel_left]
  · have within : offsetOf sources number + position < left.length := by
      have inSource := (List.getElem?_eq_some_iff.mp isField).1
      have spans := offsetOf_le_of_lt before held
      rw [JoinSource.span, if_pos (keeps source held)] at spans
      omega
    change (left ++ right).getD (0 + offsetOf sources number + position) .raised = _
    rw [Nat.zero_add, columnValue_left within]

/-! ## Chains -/

/-- The rows of a chain as it is written: each step joins its source to the rows so far, on its condition. -/
def writtenJoins (tables : Tables) (scope : Scope) (left : List Row) :
    List (AstJoinStep AstSelectStatement × JoinInput) → Except String (List Row)
  | [] => return left
  | (step, input) :: rest => do
    let condition ← bind scope false step.condition
    writtenJoins tables scope (joinRows (holdsOn condition) step.joinType input.schema.length left
      (rows tables (input.plan step.source.paths))) rest

theorem width_joinStep (plan : LogicalPlan) (step : BoundJoinStep) (input : JoinInput) :
    (joinStep plan step input).width =
      if keepsRight step.joinType then plan.width + input.schema.length else plan.width := by
  rw [joinStep, LogicalPlan.width, LogicalPlan.outputSchema, joinSchema_eq, List.length_append,
    outputSchema_filterIf, outputSchema_plan, deliveredFields]
  split
  · rw [List.length_map]
    rfl
  · rfl

/-- A chain that was bound has the rows of the chain that is written. -/
theorem rows_joinChain (tables : Tables) {scope : Scope} {plan : LogicalPlan}
    {steps : List (AstJoinStep AstSelectStatement)} {inputs : List JoinInput} {bound : List BoundJoinStep}
    (ran : bindJoinSteps scope plan.width (steps.zip (inputs.map JoinInput.schema)) = .ok bound) :
    writtenJoins tables scope (rows tables plan) (steps.zip inputs) =
      .ok (rows tables (joinChain plan (bound.zip inputs))) := by
  induction steps generalizing plan inputs bound with
  | nil =>
    obtain rfl := pure_eq_ok.mp ran
    rfl
  | cons step steps hypothesis =>
    cases inputs with
    | nil =>
      obtain rfl := pure_eq_ok.mp ran
      rfl
    | cons input inputs =>
      simp only [List.map_cons, List.zip_cons_cons, bindJoinSteps, bind_eq_ok, pure_eq_ok] at ran
      obtain ⟨condition, conditionRan, keys, keysRan, others, othersRan, rfl⟩ := ran
      rw [List.zip_cons_cons, List.zip_cons_cons, writtenJoins, conditionRan, joinChain]
      change writtenJoins tables scope _ _ = _
      rw [← rows_joinStep tables keysRan]
      exact hypothesis (by rwa [width_joinStep])

/-- An `ON` condition is `TRUE` of a pair of rows if and only if the keys are equal and not null and each of the
other conditions, where there is one, is `TRUE`. The names in it are read where the rows have the columns of their
sources. And the joins of an accepted query, with the first of the conditions below the join and the second in it,
have the rows of the joins that are written. -/
theorem extractJoinStepKeys_exact :
    (∀ (condition : Expression) (count sourceCount : Nat) (joinType : JoinType) (keys : JoinStepKeys),
      extractJoinStepKeys condition count sourceCount joinType = .ok keys →
        (keepsRight joinType = true → keys.residualPredicate = none) ∧
        ∀ left right : Row, left.length = count → right.length = sourceCount →
          (eval condition (left ++ right) = .bool true ↔
            compareValues (left.getD keys.combinedKeyIndex .raised) (right.getD keys.sourceKeyIndex .raised) =
                .ordered .eq ∧
              (∀ prefilter ∈ keys.rightPrefilter, eval prefilter right = .bool true) ∧
              ∀ residual ∈ keys.residualPredicate, eval residual (left ++ right) = .bool true)) ∧
    (∀ (sources : List JoinSource) (reference : Reference) (column : Expression),
      bindColumnRef (.join sources) reference = .ok column →
        ∃ number position, Denotes sources reference number position ∧
          ∀ (place : Nat) (left right : Row), left.length = offsetOf sources place →
            (number = place → eval column (left ++ right) = right.getD position .raised) ∧
            (number < place → (∀ source, sources[number]? = some source → keepsRight source.joinType = true) →
              eval column (left ++ right) = left.getD (offsetOf sources number + position) .raised)) ∧
    ∀ (tables : Tables) (stmt : AstSelectStatement) (clause : AstJoinClause AstSelectStatement) (first : JoinInput)
        (inputs : List JoinInput) (query : BoundQuery) (join : BoundJoin),
      stmt.join = some clause → bindJoinQuery stmt ((first :: inputs).map JoinInput.schema) = .ok query →
        query.join = some join →
        writtenJoins tables (.join (joinSources clause ((first :: inputs).map JoinInput.schema)))
            (tables.contents clause.first.paths first.schema) (clause.steps.zip inputs) =
          .ok (rows tables (buildJoinSource join first inputs)) := by
  refine ⟨?_, fun _ _ _ resolved => eval_bindColumnRef resolved, ?_⟩
  · intro condition count sourceCount joinType keys ran
    refine ⟨residual_none ran, fun left right leftWidth _ => ?_⟩
    have parts := holdsOn_eq_parts ran leftWidth right
    rw [joinMatches_residual, Bool.eq_iff_iff, Bool.and_eq_true, Bool.and_eq_true, holdsIf_eq_true,
      holdsIf_eq_true, holdsOn, Value.isTrue, decide_eq_true_eq, joinMatches, Bool.and_true,
      decide_eq_true_eq] at parts
    rw [parts, and_assoc, and_comm (a := ∀ residual ∈ keys.residualPredicate, _)]
  · intro tables stmt clause first inputs query join isClause ran isJoin
    obtain ⟨clause', first', rest, steps, isClause', isCons, bound⟩ := bindJoinQuery_eq_ok ran
    obtain rfl := Option.some.inj (isClause.symm.trans isClause')
    obtain ⟨rfl, rfl⟩ := List.cons.inj isCons
    obtain rfl := Option.some.inj (isJoin.symm.trans bound.join)
    exact @rows_joinChain tables _ (.scan (.make clause.first.paths first.schema first.partitionColumns)) _ _ _
      bound.stepsBound

/-- `a.k = b.k AND b.w > 0 AND b.w <> a.v` -/
def correlation : SqlExpr :=
  .binary .and (.binary .and (onKey "b") (.binary .greater (.columnRef "w" (some "b")) (.literal (.integer 0))))
    (.binary .notEqual (.columnRef "w" (some "b")) (.columnRef "v" (some "a")))

def correlatedClause : AstJoinClause AstSelectStatement :=
  ⟨⟨["a.parquet"], some "a"⟩,
    [{ source := ⟨["b.parquet"], some "b"⟩, condition := correlation, joinType := .leftSemi }]⟩

/-- `SELECT a.v FROM a WHERE EXISTS (SELECT * FROM b WHERE a.k = b.k AND b.w > 0 AND b.w <> a.v)`, with the subquery
already turned into a join. -/
def correlatedStatement : AstSelectStatement where
  selectList := [⟨.columnRef "v" (some "a"), none⟩]
  join := some correlatedClause

def correlatedScope : Scope :=
  .join (joinSources correlatedClause ([ordersInput, linesInput].map JoinInput.schema))

/-- A row of `a`, with `k = 1` and `v = 5`, and one of `b`, with `k = 1` and `w = 7`. -/
def correlatedRows : Row × Row :=
  ([.int 1, .int 5], [.int 1, .int 7])

theorem extractJoinStepKeys_exact_correlated :
    (∃ condition keys, bind correlatedScope false correlation = .ok condition ∧
      extractJoinStepKeys condition 2 2 .leftSemi = .ok keys ∧
      keys.rightPrefilter.isSome = true ∧ keys.residualPredicate.isSome = true ∧
      (eval condition (correlatedRows.1 ++ correlatedRows.2) = .bool true ↔
        compareValues (correlatedRows.1.getD keys.combinedKeyIndex .raised)
            (correlatedRows.2.getD keys.sourceKeyIndex .raised) = .ordered .eq ∧
          (∀ prefilter ∈ keys.rightPrefilter, eval prefilter correlatedRows.2 = .bool true) ∧
          ∀ residual ∈ keys.residualPredicate,
            eval residual (correlatedRows.1 ++ correlatedRows.2) = .bool true)) ∧
      ∃ query join, bindJoinQuery correlatedStatement ([ordersInput, linesInput].map JoinInput.schema) = .ok query ∧
        query.join = some join ∧
        writtenJoins (.ofContents []) correlatedScope [] (correlatedClause.steps.zip [linesInput]) =
          .ok (rows (.ofContents []) (buildJoinSource join ordersInput [linesInput])) := by
  constructor
  · obtain ⟨condition, keys, conditionRan, keysRan, hasPrefilter, hasResidual⟩ : ∃ condition keys,
        bind correlatedScope false correlation = .ok condition ∧
        extractJoinStepKeys condition 2 2 .leftSemi = .ok keys ∧
        keys.rightPrefilter.isSome = true ∧ keys.residualPredicate.isSome = true := ⟨_, _, rfl, rfl, rfl, rfl⟩
    exact ⟨condition, keys, conditionRan, keysRan, hasPrefilter, hasResidual,
      (extractJoinStepKeys_exact.1 condition 2 2 .leftSemi keys keysRan).2 correlatedRows.1 correlatedRows.2 rfl rfl⟩
  · exact ⟨_, _, rfl, rfl, extractJoinStepKeys_exact.2.2 (.ofContents []) correlatedStatement correlatedClause
      ordersInput [linesInput] _ _ rfl rfl rfl⟩

end KernelLake.JoinConditions
