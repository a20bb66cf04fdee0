import KernelLake.BoundTypes
import KernelLake.HashAggregationProofs
import KernelLake.Library.Results
import KernelLake.ScalarAggregates

/-!
Scalar aggregation and the cutting of its input into batches.

`accumulated` is the accumulator of an aggregate after some rows, computed in one pass. One batch
takes it to the accumulator of the rows with the batch added, unless a value must be added to a
running value of another type. Only an average can come to that: its running sum is `DOUBLE` whatever
its column is, while the other aggregates run in the type of their column.
-/

namespace KernelLake.ScalarAggregateProofs

open KernelLake.Types KernelLake.Expressions KernelLake.Evaluation KernelLake.LogicalPlans
open KernelLake.Binder KernelLake.BoundTypes
open KernelLake.HashAggregation (Cell columnwise groupAggregate)
open KernelLake.HashAggregationProofs (sum_ones integerCell)
open KernelLake.ScalarAggregates KernelLake.Library.Grouping KernelLake.Library.Results

variable {ν : Type}

theorem hasNoValues_iff {column : Column ν} :
    column.hasNoValues = true ↔ ∀ cell ∈ column.cells, cell = none := by
  simp only [Column.hasNoValues, Column.nullCount, Bool.or_eq_true, beq_iff_eq, List.countP_eq_length,
    Option.isNone_iff_eq_none]
  constructor
  · rintro (empty | nulls)
    · rw [List.length_eq_zero_iff.mp empty]
      intro cell member
      cases member
    · exact nulls
  · exact .inr

section Reduction

variable [AddCommMonoidWithOne ν] [LinearOrder ν]
variable (cudf : CudfReduce ν)

instance (aggregation : ReduceAggregation) :
    Std.Associative (reduceOperation aggregation : ν → ν → ν) := by
  cases aggregation
  · exact ⟨add_assoc⟩
  · exact ⟨min_assoc⟩
  · exact ⟨max_assoc⟩

theorem reduceValues_append (aggregation : ReduceAggregation) (first second : List (Cell ν)) :
    reduceValues aggregation (first ++ second) =
      Option.merge (reduceOperation aggregation) (reduceValues aggregation first)
        (reduceValues aggregation second) :=
  reducePresent_append _ first second

theorem reduceValues_eq_none {aggregation : ReduceAggregation} {cells : List (Cell ν)} :
    reduceValues aggregation cells = none ↔ ∀ cell ∈ cells, cell = none :=
  reducePresent_eq_none

/-- A column without values does not change a reduction. -/
theorem reduceValues_append_nulls (aggregation : ReduceAggregation) {seen cells : List (Cell ν)}
    (nulls : ∀ cell ∈ cells, cell = none) :
    reduceValues aggregation (seen ++ cells) = reduceValues aggregation seen := by
  rw [reduceValues_append, reduceValues_eq_none.mpr nulls]
  cases reduceValues aggregation seen <;> rfl

/-- The running scalar after some cells: there is none before the first value. -/
def runningOf (aggregation : ReduceAggregation) (type : CudfType) (cells : List (Cell ν)) :
    Option (Scalar ν) :=
  (reduceValues aggregation cells).map (fun value => ⟨type, some value⟩)

theorem runningOf_append_nulls (aggregation : ReduceAggregation) (type : CudfType)
    {seen cells : List (Cell ν)} (nulls : ∀ cell ∈ cells, cell = none) :
    runningOf aggregation type (seen ++ cells) = runningOf aggregation type seen := by
  unfold runningOf
  rw [reduceValues_append_nulls aggregation nulls]

theorem foldColumn_accepted {aggregation : ReduceAggregation} {output : CudfType} {column : Column ν}
    {seen : List (Cell ν)} (reducible : Reducible column.type aggregation output)
    (valued : ¬ column.hasNoValues = true) (same : output = column.type ∨ ∀ cell ∈ seen, cell = none) :
    foldColumn cudf aggregation output (runningOf aggregation output seen) column =
      .ok (runningOf aggregation output (seen ++ column.cells)) := by
  unfold foldColumn runningOf
  rw [reduceValues_append]
  have some' : reduceValues aggregation column.cells ≠ none :=
    fun none => valued (hasNoValues_iff.mpr (reduceValues_eq_none.mp none))
  obtain ⟨total, isTotal⟩ := Option.ne_none_iff_exists'.mp some'
  cases before : reduceValues aggregation seen with
  | none =>
    rw [Option.map_none, cudf.fresh column aggregation output reducible, isTotal]
    rfl
  | some value =>
    have typed : output = column.type := by
      rcases same with same | nulls
      · exact same
      · rw [reduceValues_eq_none.mpr nulls] at before
        cases before
    have merged : reduceValues aggregation (some value :: column.cells) =
        some (reduceOperation aggregation value total) := by
      have := reduceValues_append aggregation [some value] column.cells
      rwa [isTotal] at this
    rw [Option.map_some, cudf.resumed column aggregation output _ reducible typed, if_neg valued, merged, isTotal]
    rfl

theorem foldColumn_refused {aggregation : ReduceAggregation} {output : CudfType} {column : Column ν}
    {seen : List (Cell ν)} (other : output ≠ column.type) (valued : ¬ ∀ cell ∈ seen, cell = none) :
    ∃ message, foldColumn cudf aggregation output (runningOf aggregation output seen) column =
      .error message := by
  unfold foldColumn runningOf
  have some' : reduceValues aggregation seen ≠ none := fun none => valued (reduceValues_eq_none.mp none)
  obtain ⟨total, isTotal⟩ := Option.ne_none_iff_exists'.mp some'
  obtain ⟨message, refused⟩ := cudf.refused column aggregation output ⟨output, some total⟩ other
  refine ⟨message, ?_⟩
  rw [isTotal, Option.map_some, refused]
  rfl

end Reduction

/-! ## Batches with values -/

section Weights

variable {materialize : Expression → Row → Cell ν}

/-- One when some row has a value for an argument. -/
def weight (materialize : Expression → Row → Cell ν) (argument : Expression) (rows : List Row) : Nat :=
  (valuedBatches materialize argument [rows]).length

theorem weight_nil (argument : Expression) : weight materialize argument [] = 0 :=
  rfl

theorem weight_eq_zero {argument : Expression} {rows : List Row}
    (nulls : ∀ row ∈ rows, materialize argument row = none) :
    weight materialize argument rows = 0 := by
  unfold weight valuedBatches
  rw [List.filter_cons_of_neg]
  · rfl
  · simpa [Option.isSome_iff_ne_none] using nulls

theorem weight_eq_one {argument : Expression} {rows : List Row}
    (valued : ¬ ∀ row ∈ rows, materialize argument row = none) : weight materialize argument rows = 1 := by
  unfold weight valuedBatches
  rw [List.filter_cons_of_pos]
  · rfl
  · simpa [Option.isSome_iff_ne_none] using valued

theorem valuedBatches_cons (argument : Expression) (batch : List Row) (rest : List (List Row)) :
    (valuedBatches materialize argument (batch :: rest)).length =
      weight materialize argument batch + (valuedBatches materialize argument rest).length := by
  unfold weight valuedBatches
  rw [← List.length_append, ← List.filter_append, List.singleton_append]

/-- Two inputs weigh as much together as on their own, unless both have values. -/
theorem weight_append {argument : Expression} {seen batch : List Row}
    (apart : (∀ row ∈ seen, materialize argument row = none) ∨
      ∀ row ∈ batch, materialize argument row = none) :
    weight materialize argument (seen ++ batch) =
      weight materialize argument seen + weight materialize argument batch := by
  have both : (∀ row ∈ seen ++ batch, materialize argument row = none) ↔
      (∀ row ∈ seen, materialize argument row = none) ∧ ∀ row ∈ batch, materialize argument row = none :=
    List.forall_mem_append
  by_cases seenNulls : ∀ row ∈ seen, materialize argument row = none
  · by_cases batchNulls : ∀ row ∈ batch, materialize argument row = none
    · rw [weight_eq_zero (both.mpr ⟨seenNulls, batchNulls⟩), weight_eq_zero seenNulls,
        weight_eq_zero batchNulls]
    · rw [weight_eq_one (fun none => batchNulls (both.mp none).2), weight_eq_zero seenNulls,
        weight_eq_one batchNulls]
  · have batchNulls := apart.resolve_left seenNulls
    rw [weight_eq_one (fun none => seenNulls (both.mp none).1), weight_eq_one seenNulls,
      weight_eq_zero batchNulls]

/-- What is left of the input may be added to what has been seen. -/
def Accepts (materialize : Expression → Row → Cell ν) (columnType : Expression → CudfType)
    (expr : Expression) (seen : List Row) (batches : List (List Row)) : Prop :=
  ∀ argument type, expr = .aggregate .avg argument type →
    columnType argument = cudfFloat64 ∨
      weight materialize argument seen + (valuedBatches materialize argument batches).length ≤ 1

end Weights

/-! ## One accumulator -/

section Accumulators

variable (materialize : Expression → Row → Cell ν) (columnType : Expression → CudfType)

theorem argument_append (argument : Expression) (seen batch : List Row) :
    (materializeArgument materialize columnType argument (seen ++ batch)).cells =
      (materializeArgument materialize columnType argument seen).cells ++
        (materializeArgument materialize columnType argument batch).cells :=
  List.map_append

variable [AddCommMonoidWithOne ν]

theorem ones_append (argument : Expression) (seen batch : List Row) :
    (materializeCountOnes (materializeArgument materialize columnType argument (seen ++ batch))).cells =
      (materializeCountOnes (materializeArgument materialize columnType argument seen)).cells ++
        (materializeCountOnes (materializeArgument materialize columnType argument batch)).cells := by
  simp only [materializeCountOnes, argument_append, List.map_append]

theorem ones_nulls {column : Column ν} :
    (∀ cell ∈ (materializeCountOnes column).cells, cell = none) ↔ ∀ cell ∈ column.cells, cell = none := by
  simp [materializeCountOnes]

theorem ones_hasNoValues {column : Column ν} :
    (materializeCountOnes column).hasNoValues = true ↔ column.hasNoValues = true := by
  rw [hasNoValues_iff, hasNoValues_iff, ones_nulls]

variable [LinearOrder ν] (cudf : CudfReduce ν)

/-- The accumulator of an aggregate after some rows. -/
def accumulated (expr : Expression) (rows : List Row) : Accumulator ν :=
  match expr with
  | .aggregate function argument type =>
    let column := materializeArgument materialize columnType argument rows
    let counted := runningOf .sum cudfInt64 (materializeCountOnes column).cells
    let start : Accumulator ν := .initial (.call function argument) type
    match function with
    | .sum => { start with runningValue := runningOf .sum column.type column.cells }
    | .min => { start with runningValue := runningOf .min column.type column.cells }
    | .max => { start with runningValue := runningOf .max column.type column.cells }
    | .count => { start with runningCountScalar := counted }
    | .avg =>
      { start with runningValue := runningOf .sum cudfFloat64 column.cells, runningCountScalar := counted }
    | .countDistinct => start
  | expr => { Accumulator.initial .countStar expr.resultType with runningCount := rows.length }

theorem openItem_accumulated {item : NamedExpression} (plain : columnwise item.expr = true) :
    openItem item = .ok (accumulated materialize columnType item.expr []) := by
  obtain ⟨expr, name⟩ := item
  cases expr with
  | countStar type => rfl
  | aggregate function argument type =>
    cases function with
    | countDistinct => simp [columnwise] at plain
    | sum => rfl
    | count => rfl
    | min => rfl
    | max => rfl
    | avg => rfl
  | column | literal | binary | unary | cast | extract | substring | between | like | caseWhen =>
    simp [columnwise] at plain

variable {materialize columnType}

theorem processDirect_accumulated {aggregation : ReduceAggregation} {argument : Expression}
    {state : Accumulator ν} {seen batch : List Row}
    (reducible : Reducible (columnType argument) aggregation (columnType argument))
    (typed : toCudfType state.resultType = .ok (columnType argument))
    (running : state.runningValue = runningOf aggregation (columnType argument)
      (materializeArgument materialize columnType argument seen).cells) :
    processDirect cudf materialize columnType aggregation argument state batch =
      .ok { state with
        runningValue := runningOf aggregation (columnType argument)
          (materializeArgument materialize columnType argument (seen ++ batch)).cells } := by
  unfold processDirect
  rw [argument_append]
  by_cases valued : (materializeArgument materialize columnType argument batch).hasNoValues = true
  · rw [runningOf_append_nulls _ _ (hasNoValues_iff.mp valued), ← running]
    exact if_pos valued
  · have folded : foldColumn cudf aggregation (columnType argument) state.runningValue
        (materializeArgument materialize columnType argument batch) =
        .ok (runningOf aggregation (columnType argument)
          ((materializeArgument materialize columnType argument seen).cells ++
            (materializeArgument materialize columnType argument batch).cells)) := by
      rw [running]
      exact foldColumn_accepted cudf reducible valued (.inl rfl)
    apply (if_neg valued).trans
    exact bind_eq_ok.mpr ⟨_, typed, bind_eq_ok.mpr ⟨_, folded, rfl⟩⟩

/-- The counting column is of the type of its running scalar. -/
theorem countOnes_accepted {argument : Expression} {seen batch : List Row}
    (valued : ¬ (materializeArgument materialize columnType argument batch).hasNoValues = true) :
    foldColumn cudf .sum cudfInt64
        (runningOf .sum cudfInt64
          (materializeCountOnes (materializeArgument materialize columnType argument seen)).cells)
        (materializeCountOnes (materializeArgument materialize columnType argument batch)) =
      .ok (runningOf .sum cudfInt64
        (materializeCountOnes (materializeArgument materialize columnType argument (seen ++ batch))).cells) := by
  rw [ones_append]
  exact foldColumn_accepted cudf (Or.inl ⟨rfl, rfl⟩) (fun none => valued (ones_hasNoValues.mp none)) (.inl rfl)

/-- A batch whose values can be added takes the accumulator to that of the longer input. -/
theorem processBatch_accumulated {expr : Expression} (plain : columnwise expr = true)
    (bound : BoundAggregate columnType expr) {seen batch : List Row}
    (accepts : ∀ argument type, expr = .aggregate .avg argument type →
      columnType argument = cudfFloat64 ∨ (∀ row ∈ seen, materialize argument row = none) ∨
        ∀ row ∈ batch, materialize argument row = none) :
    processBatch cudf materialize columnType (accumulated materialize columnType expr seen) batch =
      .ok (accumulated materialize columnType expr (seen ++ batch)) := by
  cases expr with
  | countStar type => simp [processBatch, accumulated, Accumulator.initial]
  | aggregate function argument type =>
    cases function with
    | countDistinct => simp [columnwise] at plain
    | sum =>
      obtain ⟨typed, summable⟩ := bound
      have reducible : Reducible (columnType argument) .sum (columnType argument) :=
        summable.imp (fun arithmetic => ⟨arithmetic, arithmetic⟩) (fun decimal => ⟨decimal, rfl⟩)
      exact processDirect_accumulated cudf reducible typed rfl
    | min =>
      have reducible : Reducible (columnType argument) .min (columnType argument) := rfl
      exact processDirect_accumulated cudf reducible bound rfl
    | max =>
      have reducible : Reducible (columnType argument) .max (columnType argument) := rfl
      exact processDirect_accumulated cudf reducible bound rfl
    | count =>
      by_cases valued : (materializeArgument materialize columnType argument batch).hasNoValues = true
      · apply (if_pos (ones_hasNoValues.mpr valued)).trans
        simp only [accumulated, ones_append,
          runningOf_append_nulls _ _ (ones_nulls.mpr (hasNoValues_iff.mp valued))]
      · apply (if_neg (fun none => valued (ones_hasNoValues.mp none))).trans
        exact bind_eq_ok.mpr ⟨_, countOnes_accepted cudf valued, rfl⟩
    | avg =>
      by_cases valued : (materializeArgument materialize columnType argument batch).hasNoValues = true
      · apply (if_pos valued).trans
        simp only [accumulated, ones_append, argument_append,
          runningOf_append_nulls _ _ (ones_nulls.mpr (hasNoValues_iff.mp valued)),
          runningOf_append_nulls _ _ (hasNoValues_iff.mp valued)]
      · have same : cudfFloat64 = columnType argument ∨
            ∀ cell ∈ (materializeArgument materialize columnType argument seen).cells, cell = none := by
          rcases accepts argument type rfl with same | nulls | nulls
          · exact .inl same.symm
          · exact .inr (List.forall_mem_map.mpr nulls)
          · exact absurd (hasNoValues_iff.mpr (List.forall_mem_map.mpr nulls)) valued
        have reducible : Reducible (columnType argument) .sum cudfFloat64 := Or.inl ⟨bound.2, rfl⟩
        have folded := foldColumn_accepted cudf reducible valued same
        rw [← argument_append] at folded
        apply (if_neg valued).trans
        exact bind_eq_ok.mpr ⟨_, folded, bind_eq_ok.mpr ⟨_, countOnes_accepted cudf valued, rfl⟩⟩
  | column | literal | binary | unary | cast | extract | substring | between | like | caseWhen =>
    simp [columnwise] at plain

/-- A running average takes no second batch with values of another type than `DOUBLE`. -/
theorem processBatch_refused {argument : Expression} {type : DataType}
    (other : columnType argument ≠ cudfFloat64) {seen batch : List Row}
    (seenValued : ¬ ∀ row ∈ seen, materialize argument row = none)
    (batchValued : ¬ ∀ row ∈ batch, materialize argument row = none) :
    ∃ message, processBatch cudf materialize columnType
      (accumulated materialize columnType (.aggregate .avg argument type) seen) batch = .error message := by
  have valued : ¬ (materializeArgument materialize columnType argument batch).hasNoValues = true :=
    fun none => batchValued (List.forall_mem_map.mp (hasNoValues_iff.mp none))
  have running : ¬ ∀ cell ∈ (materializeArgument materialize columnType argument seen).cells, cell = none :=
    fun none => seenValued (List.forall_mem_map.mp none)
  obtain ⟨message, refused⟩ : ∃ message, foldColumn cudf .sum cudfFloat64
      (runningOf .sum cudfFloat64 (materializeArgument materialize columnType argument seen).cells)
      (materializeArgument materialize columnType argument batch) = .error message :=
    foldColumn_refused cudf other.symm running
  refine ⟨message, ?_⟩
  apply (if_neg valued).trans
  simp only [accumulated]
  rw [refused]
  rfl

/-! ## Runs -/

theorem run_accumulated {expr : Expression} (plain : columnwise expr = true)
    (bound : BoundAggregate columnType expr) {seen : List Row} {batches : List (List Row)}
    (accepts : Accepts materialize columnType expr seen batches) :
    batches.foldlM (processBatch cudf materialize columnType) (accumulated materialize columnType expr seen) =
      .ok (accumulated materialize columnType expr (seen ++ batches.flatten)) := by
  induction batches generalizing seen with
  | nil =>
    rw [List.flatten_nil, List.append_nil]
    rfl
  | cons batch rest hypothesis =>
    -- an average of another type has its values in the seen rows, in the batch, or in what follows
    have apart : ∀ argument type, expr = .aggregate .avg argument type →
        columnType argument = cudfFloat64 ∨ (∀ row ∈ seen, materialize argument row = none) ∨
          ∀ row ∈ batch, materialize argument row = none := by
      intro argument type isAverage
      refine (accepts argument type isAverage).imp_right ?_
      intro few
      rw [valuedBatches_cons] at few
      by_cases seenNulls : ∀ row ∈ seen, materialize argument row = none
      · exact .inl seenNulls
      · refine .inr (not_not.mp (fun valued => ?_))
        rw [weight_eq_one seenNulls, weight_eq_one valued] at few
        omega
    have rest' : Accepts materialize columnType expr (seen ++ batch) rest := by
      intro argument type isAverage
      rcases apart argument type isAverage with same | apart
      · exact .inl same
      · refine (accepts argument type isAverage).imp_right ?_
        rw [valuedBatches_cons, weight_append apart]
        omega
    rw [List.foldlM_cons, List.flatten_cons, ← List.append_assoc]
    exact bind_eq_ok.mpr ⟨_, processBatch_accumulated cudf plain bound apart, hypothesis rest'⟩

theorem accepts_of_run {expr : Expression} (plain : columnwise expr = true)
    (bound : BoundAggregate columnType expr) {seen : List Row} {batches : List (List Row)}
    {final : Accumulator ν}
    (ran : batches.foldlM (processBatch cudf materialize columnType)
      (accumulated materialize columnType expr seen) = .ok final) :
    Accepts materialize columnType expr seen batches := by
  intro argument type isAverage
  subst isAverage
  by_cases same : columnType argument = cudfFloat64
  · exact .inl same
  refine .inr ?_
  induction batches generalizing seen with
  | nil =>
    by_cases nulls : ∀ row ∈ seen, materialize argument row = none
    · rw [weight_eq_zero nulls]
      exact Nat.zero_le 1
    · rw [weight_eq_one nulls]
      exact le_refl 1
  | cons batch rest hypothesis =>
    rw [List.foldlM_cons] at ran
    obtain ⟨middle, stepRan, restRan⟩ := bind_eq_ok.mp ran
    by_cases apart : (∀ row ∈ seen, materialize argument row = none) ∨
        ∀ row ∈ batch, materialize argument row = none
    · rw [processBatch_accumulated cudf plain bound] at stepRan
      · cases stepRan
        have few := hypothesis restRan
        rw [weight_append apart] at few
        rw [valuedBatches_cons]
        omega
      · intro other otherType isOther
        cases isOther
        exact .inr apart
    · rw [not_or] at apart
      obtain ⟨message, refused⟩ := processBatch_refused cudf same apart.1 apart.2
      rw [refused] at stepRan
      cases stepRan

/-! ## The result -/

variable (divide : ν → ν → ν)

theorem runningOf_value (aggregation : ReduceAggregation) (type : CudfType) (cells : List (Cell ν)) :
    (runningOf aggregation type cells).bind Scalar.value = reduceValues aggregation cells := by
  unfold runningOf
  cases reduceValues aggregation cells <;> rfl

/-- The sum of the ones is the number of values, where there is one. -/
theorem runningOf_ones (column : Column ν) :
    runningOf .sum cudfInt64 (materializeCountOnes column).cells =
      if column.cells.filter Option.isSome = [] then none
      else some ⟨cudfInt64, some ((column.cells.filter Option.isSome).length : ν)⟩ := by
  have counted : reduceValues .sum (materializeCountOnes column).cells =
      if column.cells.filter Option.isSome = [] then none
      else some ((column.cells.filter Option.isSome).length : ν) := sum_ones column.cells
  rw [runningOf, counted]
  split <;> rfl

theorem runningOf_ones_elim (column : Column ν) :
    (runningOf .sum cudfInt64 (materializeCountOnes column).cells).elim (some 0) Scalar.value =
      some ((column.cells.filter Option.isSome).length : ν) := by
  rw [runningOf_ones]
  split
  · rename_i empty
    simp [empty]
  · rfl

/-- An average divides the sum of the values, if there is one, by their number. -/
theorem average_ones (divide : ν → ν → ν) (column : Column ν) :
    ((runningOf .sum cudfFloat64 column.cells).bind (fun sum =>
      (runningOf .sum cudfInt64 (materializeCountOnes column).cells).bind (fun count =>
        sum.value.bind (fun total => count.value.map (divide total))))) =
      (reduceValues .sum column.cells).map
        (fun total => divide total ((column.cells.filter Option.isSome).length : ν)) := by
  rw [runningOf_ones]
  unfold runningOf
  cases sum : reduceValues .sum column.cells with
  | none => rfl
  | some total =>
    rw [if_neg]
    · rfl
    intro empty
    have nulls : ∀ cell ∈ column.cells, cell = none := by
      intro cell member
      simpa using List.filter_eq_nil_iff.mp empty cell member
    rw [reduceValues_eq_none.mpr nulls] at sum
    cases sum

/-- An accumulator ends in the aggregate of the rows it has seen. -/
theorem finalize_accumulated {expr : Expression} (plain : columnwise expr = true)
    (bound : BoundAggregate columnType expr) (rows : List Row) :
    finalize divide (accumulated materialize columnType expr rows) =
      .ok (groupAggregate materialize divide expr rows) := by
  cases expr with
  | countStar type => exact bind_eq_ok.mpr ⟨_, bound, rfl⟩
  | aggregate function argument type =>
    cases function with
    | countDistinct => simp [columnwise] at plain
    | sum => exact bind_eq_ok.mpr ⟨_, bound.1, congrArg Except.ok (runningOf_value ..)⟩
    | min => exact bind_eq_ok.mpr ⟨_, bound, congrArg Except.ok (runningOf_value ..)⟩
    | max => exact bind_eq_ok.mpr ⟨_, bound, congrArg Except.ok (runningOf_value ..)⟩
    | count =>
      have count := runningOf_ones_elim (materializeArgument materialize columnType argument rows)
      exact bind_eq_ok.mpr ⟨_, bound, congrArg Except.ok count⟩
    | avg =>
      have average := average_ones divide (materializeArgument materialize columnType argument rows)
      exact bind_eq_ok.mpr ⟨_, bound.1, congrArg Except.ok average⟩
  | column | literal | binary | unary | cast | extract | substring | between | like | caseWhen =>
    simp [columnwise] at plain

/-! ## The operator -/

theorem groupAggregate_noValues {expr : Expression} (plain : columnwise expr = true) {rows : List Row}
    (noValues : NoValues materialize expr rows) :
    groupAggregate materialize divide expr rows = emptyAggregate expr := by
  cases expr with
  | countStar type =>
    subst noValues
    exact congrArg some Nat.cast_zero
  | aggregate function argument type =>
    have nulls : ∀ cell ∈ rows.map (materialize argument), cell = none := List.forall_mem_map.mpr noValues
    have none : (rows.map (materialize argument)).filter Option.isSome = [] := by
      apply List.filter_eq_nil_iff.mpr
      intro cell member
      simp [nulls cell member]
    cases function with
    | countDistinct => simp [columnwise] at plain
    | sum => exact reducePresent_eq_none.mpr nulls
    | min => exact reducePresent_eq_none.mpr nulls
    | max => exact reducePresent_eq_none.mpr nulls
    | count => simp [groupAggregate, emptyAggregate, none]
    | avg => simp [groupAggregate, emptyAggregate, reducePresent_eq_none.mpr nulls]
  | column | literal | binary | unary | cast | extract | substring | between | like | caseWhen =>
    simp [columnwise] at plain

theorem independent_iff {aggregates : List NamedExpression}
    (plain : ∀ item ∈ aggregates, columnwise item.expr = true)
    (bound : ∀ item ∈ aggregates, BoundAggregate columnType item.expr) (batches : List (List Row)) :
    IndependentOfBatches materialize divide columnType cudf aggregates batches ↔
      AveragesInOneBatch materialize columnType aggregates batches := by
  have opened : aggregates.mapM openItem =
      .ok (aggregates.map (fun item => accumulated materialize columnType item.expr [])) := by
    rw [mapM_eq_ok, List.forall₂_map_right_iff, List.forall₂_same]
    exact fun item member => openItem_accumulated materialize columnType (plain item member)
  have finished : (aggregates.map (fun item => accumulated materialize columnType item.expr batches.flatten)).mapM
      (finalize divide) = .ok (aggregatedOnce materialize divide aggregates batches.flatten) := by
    rw [mapM_eq_ok, List.forall₂_map_left_iff, aggregatedOnce, List.forall₂_map_right_iff, List.forall₂_same]
    exact fun item member => finalize_accumulated divide (plain item member) (bound item member) _
  constructor
  · intro independent item member argument type isAverage
    obtain ⟨states, openRan, rest⟩ := bind_eq_ok.mp independent.once
    rw [opened] at openRan
    cases openRan
    obtain ⟨first, firstRan, _⟩ := bind_eq_ok.mp rest
    obtain ⟨finals, ran, _⟩ := bind_eq_ok.mp firstRan
    have runs := foldlM_mapM_eq_ok.mp ran
    rw [List.forall₂_map_left_iff] at runs
    obtain ⟨final, _, itemRan⟩ := exists_of_mem_left runs member
    have accepts := accepts_of_run cudf (plain item member) (bound item member) itemRan argument type isAverage
    rwa [weight_nil, Nat.zero_add] at accepts
  · intro averages
    refine ⟨?_, fun item member => groupAggregate_noValues divide (plain item member)⟩
    have ran : batches.foldlM (processAll cudf materialize columnType)
        (aggregates.map (fun item => accumulated materialize columnType item.expr [])) =
        .ok (aggregates.map (fun item => accumulated materialize columnType item.expr batches.flatten)) := by
      apply foldlM_mapM_eq_ok.mpr
      rw [List.forall₂_map_left_iff, List.forall₂_map_right_iff, List.forall₂_same]
      intro item member
      have accepts : Accepts materialize columnType item.expr [] batches := by
        intro argument type isAverage
        rw [weight_nil, Nat.zero_add]
        exact averages item member argument type isAverage
      exact run_accumulated cudf (plain item member) (bound item member) accepts
    have first : next cudf materialize columnType divide
        ⟨aggregates.map (fun item => accumulated materialize columnType item.expr []), false⟩ batches =
        .ok (some (aggregatedOnce materialize divide aggregates batches.flatten),
          ⟨aggregates.map (fun item => accumulated materialize columnType item.expr batches.flatten), true⟩) :=
      bind_eq_ok.mpr ⟨_, ran, bind_eq_ok.mpr ⟨_, finished, rfl⟩⟩
    exact bind_eq_ok.mpr ⟨_, opened, bind_eq_ok.mpr ⟨_, first, rfl⟩⟩

end Accumulators

/-! ## Bound aggregates -/

theorem toCudfType_sameKind {first second : DataType} (same : sameKind first second = true) :
    toCudfType first = toCudfType second := by
  obtain ⟨id, precision, scale⟩ := sameKind_iff.mp same
  unfold toCudfType
  rw [id, precision, scale]

theorem isDecimal_of_decimal {type : DataType} {column : CudfType} (decimal : type.id = .decimal)
    (typed : toCudfType type = .ok column) : column.isDecimal = true := by
  unfold toCudfType at typed
  rw [decimal] at typed
  cases isPrecision : type.precision with
  | none => simp [isPrecision] at typed
  | some precision =>
    cases isScale : type.scale with
    | none => simp [isScale] at typed
    | some scale =>
      simp only [isPrecision, isScale, Except.ok.injEq] at typed
      subst typed
      rcases lt_or_ge 9 precision with many | few
      · rcases lt_or_ge 18 precision with more | less
        · simp [CudfType.isDecimal, decimalCudfTypeId, many.not_ge, more.not_ge]
        · simp [CudfType.isDecimal, decimalCudfTypeId, many.not_ge, less]
      · simp [CudfType.isDecimal, decimalCudfTypeId, few]

theorem isArithmetic_of_numeric {type : DataType} {column : CudfType} (numeric : isNumeric type.id = true)
    (notDecimal : type.id ≠ .decimal) (typed : toCudfType type = .ok column) : column.isArithmetic = true := by
  unfold toCudfType at typed
  cases id : type.id with
  | decimal => exact absurd id notDecimal
  | int32 | int64 | uint32 | uint64 | float32 | float64 =>
    rw [id] at typed
    cases typed
    rfl
  | boolean | string | date32 | timestamp =>
    rw [id] at numeric
    cases numeric

/-- The aggregates that the binder builds are bound, where columns have the types of their
expressions. -/
theorem bound_combineAggregate {columnType : Expression → CudfType}
    (typed : ∀ expr type, toCudfType expr.resultType = .ok type → columnType expr = type)
    {function : AggregateFunction} {argument expr : Expression} {argumentType : CudfType}
    (known : toCudfType argument.resultType = .ok argumentType)
    (ran : combineAggregate function argument = .ok expr) : BoundAggregate columnType expr := by
  have isTyped := typed argument argumentType known
  unfold combineAggregate at ran
  cases function with
  | count | countDistinct =>
    cases ran
    rfl
  | min | max =>
    cases ran
    exact known.trans (congrArg Except.ok isTyped.symm)
  | avg =>
    by_cases numeric : isNumeric argument.resultType.id = true
    · by_cases decimal : argument.resultType.id = .decimal
      · simp [decimal, isNumeric] at ran
      · simp only [numeric, decimal, Bool.not_true, Bool.false_eq_true, if_false] at ran
        cases ran
        refine ⟨rfl, ?_⟩
        rw [isTyped]
        exact isArithmetic_of_numeric numeric decimal known
    · simp [numeric] at ran
  | sum =>
    by_cases numeric : isNumeric argument.resultType.id = true
    · by_cases decimal : argument.resultType.id = .decimal
      · simp [decimal, isNumeric] at ran
        cases ran
        refine ⟨?_, .inr ?_⟩
        · rw [isTyped, ← known]
          exact toCudfType_sameKind (sameKind_iff.mpr ⟨decimal.symm, rfl, rfl⟩)
        · rw [isTyped]
          exact isDecimal_of_decimal decimal known
      · simp only [numeric, decimal, Bool.not_true, Bool.false_eq_true, if_false] at ran
        obtain ⟨cast, castRan, isExpr⟩ := bind_eq_ok.mp ran
        cases isExpr
        obtain ⟨column, isColumn, arithmetic⟩ : ∃ column,
            toCudfType (if isFloating argument.resultType.id then float64Type true
              else if argument.resultType.id = .uint64 then uint64Type true else int64Type true) = .ok column ∧
              column.isArithmetic = true := by
          split
          · exact ⟨cudfFloat64, rfl, rfl⟩
          · split
            · exact ⟨⟨.uint64, 0⟩, rfl, rfl⟩
            · exact ⟨cudfInt64, rfl, rfl⟩
        have castTyped : columnType cast = column :=
          typed cast column ((toCudfType_sameKind (castIfNeeded_sameKind castRan)).trans isColumn)
        exact ⟨isColumn.trans (congrArg Except.ok castTyped.symm), .inl (castTyped ▸ arithmetic)⟩
    · simp [numeric] at ran

/-! ## An average of integers -/

/-- The type of the column that an expression gives. -/
def resultColumnType (expr : Expression) : CudfType :=
  match toCudfType expr.resultType with
  | .ok type => type
  | .error _ => cudfInt64

def salesColumn : Expression := .column "sales" 0 (int64Type true)

def salesAggregates : List NamedExpression :=
  [⟨.aggregate .sum salesColumn (int64Type true), "sum"⟩,
    ⟨.aggregate .avg salesColumn (float64Type true), "avg"⟩,
    ⟨.aggregate .count salesColumn (int64Type false), "count"⟩,
    ⟨.countStar (int64Type false), "rows"⟩]

/-- Every value is in the third batch. -/
theorem independent_one_batch :
    IndependentOfBatches integerCell (· / ·) resultColumnType (.documented Int) salesAggregates
      [[[.null]], [], [[.int 10], [.null], [.int 20]], [[.null], [.null]]] := by
  have bound : ∀ item ∈ salesAggregates, BoundAggregate resultColumnType item.expr :=
    List.forall_mem_cons.mpr ⟨⟨rfl, .inl rfl⟩, List.forall_mem_cons.mpr ⟨⟨rfl, rfl⟩,
      List.forall_mem_cons.mpr ⟨rfl, List.forall_mem_singleton.mpr rfl⟩⟩⟩
  apply (independent_iff (.documented Int) (· / ·) (by decide) bound _).mpr
  intro item member argument type isAverage
  right
  have isSales : argument = salesColumn := by
    simp only [salesAggregates, List.mem_cons, List.not_mem_nil, or_false] at member
    rcases member with rfl | rfl | rfl | rfl
    · cases isAverage
    · cases isAverage
      rfl
    · cases isAverage
    · cases isAverage
  subst isSales
  decide

example : aggregatedOnce integerCell (· / ·) salesAggregates
    [[.null], [.int 10], [.null], [.int 20], [.null], [.null]] =
    [some 30, some 15, some 2, some 6] := by decide

/-- The average of one column of integers, over two batches. -/
theorem average_depends_on_batches :
    ¬ IndependentOfBatches integerCell (· / ·) resultColumnType (.documented Int)
      [⟨.aggregate .avg salesColumn (float64Type true), "avg"⟩] [[[.int 10]], [[.int 20]]] := by
  intro independent
  have failed : execute (.documented Int) integerCell resultColumnType (· / ·)
      [⟨.aggregate .avg salesColumn (float64Type true), "avg"⟩] [[[.int 10]], [[.int 20]]] =
      .error initialTypeMessage := by rfl
  have once := independent.once
  rw [failed] at once
  cases once

end KernelLake.ScalarAggregateProofs
