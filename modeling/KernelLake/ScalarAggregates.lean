import KernelLake.HashAggregation

/-!
The aggregation operator of the GPU backend for queries without `GROUP BY`.

Each aggregate keeps an accumulator. A batch is folded into it by a reduction that takes the running
value as its initial value, and a batch without a value leaves it as it was. After the last batch the
accumulators give the one output row.

Reduction is a parameter: `CudfReduce` holds it with what it promises. Cells hold values of an
arbitrary exact arithmetic, but columns and scalars keep their type, since an initial value is taken
only in the type of the column.
-/

namespace KernelLake.ScalarAggregates

open KernelLake.Types KernelLake.Expressions KernelLake.Evaluation KernelLake.LogicalPlans
open KernelLake.HashAggregation KernelLake.Library.Grouping

variable {ν : Type}

/-! ## Column types -/

inductive CudfTypeId
  | bool8 | int32 | int64 | uint32 | uint64 | float32 | float64 | string
  | timestampDays | timestampMicroseconds
  | decimal32 | decimal64 | decimal128
  deriving DecidableEq

/-- A column type; only decimals have a scale other than zero. -/
structure CudfType where
  id : CudfTypeId
  scale : Int := 0
  deriving DecidableEq

def decimalCudfTypeId (precision : Int) : CudfTypeId :=
  if precision ≤ 9 then .decimal32 else if precision ≤ 18 then .decimal64 else .decimal128

def missingPrecisionMessage : String := "DECIMAL type is missing precision/scale"

def toCudfType (type : DataType) : Except String CudfType :=
  match type.id with
  | .boolean => .ok ⟨.bool8, 0⟩
  | .int32 => .ok ⟨.int32, 0⟩
  | .int64 => .ok ⟨.int64, 0⟩
  | .uint32 => .ok ⟨.uint32, 0⟩
  | .uint64 => .ok ⟨.uint64, 0⟩
  | .float32 => .ok ⟨.float32, 0⟩
  | .float64 => .ok ⟨.float64, 0⟩
  | .string => .ok ⟨.string, 0⟩
  | .date32 => .ok ⟨.timestampDays, 0⟩
  | .timestamp => .ok ⟨.timestampMicroseconds, 0⟩
  | .decimal =>
    match type.precision, type.scale with
    | some precision, some scale => .ok ⟨decimalCudfTypeId precision, -scale⟩
    | _, _ => .error missingPrecisionMessage

def cudfInt64 : CudfType := ⟨.int64, 0⟩
def cudfFloat64 : CudfType := ⟨.float64, 0⟩

def CudfType.isArithmetic (type : CudfType) : Bool :=
  match type.id with
  | .int32 | .int64 | .uint32 | .uint64 | .float32 | .float64 => true
  | _ => false

def CudfType.isDecimal (type : CudfType) : Bool :=
  match type.id with
  | .decimal32 | .decimal64 | .decimal128 => true
  | _ => false

/-! ## Reduction -/

structure Column (ν : Type) where
  type : CudfType
  cells : List (Cell ν)

/-- A value of its own; it is invalid when it holds none. -/
structure Scalar (ν : Type) where
  type : CudfType
  value : Cell ν

def Column.nullCount (column : Column ν) : Nat :=
  column.cells.countP (fun cell => cell.isNone)

/-- The guard before every reduction: the column is empty or has only nulls. -/
def Column.hasNoValues (column : Column ν) : Bool :=
  column.cells.length == 0 || column.nullCount == column.cells.length

inductive ReduceAggregation
  | sum | min | max
  deriving DecidableEq

/-- The columns that can be reduced to a type: sums convert between arithmetic types, everything
else stays in the type of the column. -/
def Reducible (type : CudfType) : ReduceAggregation → CudfType → Prop
  | .sum, output =>
    type.isArithmetic = true ∧ output.isArithmetic = true ∨ type.isDecimal = true ∧ output = type
  | .min, output => output = type
  | .max, output => output = type

instance (type : CudfType) (aggregation : ReduceAggregation) (output : CudfType) :
    Decidable (Reducible type aggregation output) := by
  cases aggregation <;> unfold Reducible <;> infer_instance

section Reduction

variable [AddCommMonoidWithOne ν] [LinearOrder ν]

def reduceOperation : ReduceAggregation → ν → ν → ν
  | .sum => (· + ·)
  | .min => min
  | .max => max

def reduceValues (aggregation : ReduceAggregation) (cells : List (Cell ν)) : Cell ν :=
  reducePresent (reduceOperation aggregation) cells

/-- Reduction of a column, with or without an initial value. Nulls are skipped. An initial value must
have the type of the column, and is lost when the column has no value to add to it. -/
structure CudfReduce (ν : Type) [AddCommMonoidWithOne ν] [LinearOrder ν] where
  reduce : Column ν → ReduceAggregation → CudfType → Option (Scalar ν) → Except String (Scalar ν)
  fresh : ∀ column aggregation output, Reducible column.type aggregation output →
    reduce column aggregation output none = .ok ⟨output, reduceValues aggregation column.cells⟩
  resumed : ∀ column aggregation output (initial : Scalar ν),
    Reducible column.type aggregation output → initial.type = column.type →
    reduce column aggregation output (some initial) =
      .ok ⟨output, if column.hasNoValues then none
        else reduceValues aggregation (initial.value :: column.cells)⟩
  refused : ∀ column aggregation output (initial : Scalar ν), initial.type ≠ column.type →
    ∃ message, reduce column aggregation output (some initial) = .error message

def initialTypeMessage : String := "column and initial value must be the same type"

/-- Reduction with just these promises. -/
def CudfReduce.documented (ν : Type) [AddCommMonoidWithOne ν] [LinearOrder ν] : CudfReduce ν where
  reduce column aggregation output initial :=
    match initial with
    | none => .ok ⟨output, reduceValues aggregation column.cells⟩
    | some initial =>
      if initial.type ≠ column.type then .error initialTypeMessage
      else if column.hasNoValues then .ok ⟨output, none⟩
      else .ok ⟨output, reduceValues aggregation (initial.value :: column.cells)⟩
  fresh _ _ _ _ := rfl
  resumed column _ _ initial _ same := by
    simp only [ne_eq, same, not_true_eq_false, if_false]
    split <;> rfl
  refused _ _ _ _ other := ⟨initialTypeMessage, if_pos other⟩

end Reduction

/-! ## Opening the operator -/

/-- What an accumulator computes; `COUNT(*)` has no argument. -/
inductive AccumulatorFunction
  | countStar
  | call (function : AggregateFunction) (argument : Expression)

structure Accumulator (ν : Type) where
  function : AccumulatorFunction
  resultType : DataType
  runningValue : Option (Scalar ν)
  runningCountScalar : Option (Scalar ν)
  runningCount : Nat

def Accumulator.initial (function : AccumulatorFunction) (resultType : DataType) : Accumulator ν :=
  ⟨function, resultType, none, none, 0⟩

def notAggregateMessage (name : String) : String :=
  "ScalarAggregateOperator item '" ++ name ++ "' is not an AggregateExpression"

def distinctMessage : String :=
  "COUNT(DISTINCT ...) without a GROUP BY is not yet supported on the GPU backend"

def unreachableMessage : String := "unreachable: unknown AggregateFunction"

/-- What `ScalarAggregateOperator::open` makes of one aggregate. -/
def openItem (item : NamedExpression) : Except String (Accumulator ν) :=
  match item.expr with
  | .countStar type => .ok (.initial .countStar type)
  | .aggregate function argument type =>
    if function = .countDistinct then .error distinctMessage
    else .ok (.initial (.call function argument) type)
  | _ => .error (notAggregateMessage item.name)

/-! ## Batches -/

section Batches

variable [AddCommMonoidWithOne ν] [LinearOrder ν]
variable (cudf : CudfReduce ν) (materialize : Expression → Row → Cell ν)
variable (columnType : Expression → CudfType)

/-- The argument of an aggregate over one batch. -/
def materializeArgument (argument : Expression) (batch : List Row) : Column ν :=
  ⟨columnType argument, batch.map (materialize argument)⟩

/-- A column of ones with the nulls of another. -/
def materializeCountOnes (argument : Column ν) : Column ν :=
  ⟨cudfInt64, argument.cells.map (Option.map (fun _ => 1))⟩

/-- Folds a column with a value into a running scalar. -/
def foldColumn (aggregation : ReduceAggregation) (output : CudfType) (running : Option (Scalar ν))
    (column : Column ν) : Except String (Option (Scalar ν)) := do
  return some (← cudf.reduce column aggregation output running)

/-- `SUM`, `MIN` and `MAX` over one batch. -/
def processDirect (aggregation : ReduceAggregation) (argument : Expression)
    (state : Accumulator ν) (batch : List Row) : Except String (Accumulator ν) :=
  let column := materializeArgument materialize columnType argument batch
  if column.hasNoValues then .ok state
  else do
    let output ← toCudfType state.resultType
    return { state with runningValue := ← foldColumn cudf aggregation output state.runningValue column }

def processBatch (state : Accumulator ν) (batch : List Row) : Except String (Accumulator ν) :=
  match state.function with
  | .countStar => .ok { state with runningCount := state.runningCount + batch.length }
  | .call function argument =>
    match function with
    | .countDistinct => .error unreachableMessage
    | .count =>
      let ones := materializeCountOnes (materializeArgument materialize columnType argument batch)
      if ones.hasNoValues then .ok state
      else do
        let count ← foldColumn cudf .sum cudfInt64 state.runningCountScalar ones
        return { state with runningCountScalar := count }
    | .sum => processDirect cudf materialize columnType .sum argument state batch
    | .min => processDirect cudf materialize columnType .min argument state batch
    | .max => processDirect cudf materialize columnType .max argument state batch
    | .avg =>
      let column := materializeArgument materialize columnType argument batch
      if column.hasNoValues then .ok state
      else do
        let sum ← foldColumn cudf .sum cudfFloat64 state.runningValue column
        let count ← foldColumn cudf .sum cudfInt64 state.runningCountScalar (materializeCountOnes column)
        return { state with runningValue := sum, runningCountScalar := count }

/-! ## The result -/

variable (divide : ν → ν → ν)

/-- The one cell an accumulator ends in. -/
def finalize (state : Accumulator ν) : Except String (Cell ν) := do
  let _ ← toCudfType state.resultType
  match state.function with
  | .countStar => return some (state.runningCount : ν)
  | .call function _ =>
    match function with
    | .countDistinct => .error unreachableMessage
    | .count => return state.runningCountScalar.elim (some 0) Scalar.value
    | .sum | .min | .max => return state.runningValue.bind Scalar.value
    | .avg =>
      return state.runningValue.bind (fun sum => state.runningCountScalar.bind (fun count =>
        sum.value.bind (fun total => count.value.map (divide total))))

/-- What the operator keeps between calls. -/
structure Progress (ν : Type) where
  states : List (Accumulator ν)
  produced : Bool

def processAll (states : List (Accumulator ν)) (batch : List Row) : Except String (List (Accumulator ν)) :=
  states.mapM (processBatch cudf materialize columnType · batch)

/-- The first call takes every batch of the child and gives the one row; later calls give nothing. -/
def next (progress : Progress ν) (batches : List (List Row)) :
    Except String (Option (List (Cell ν)) × Progress ν) :=
  if progress.produced then .ok (none, progress)
  else do
    let states ← batches.foldlM (processAll cudf materialize columnType) progress.states
    let row ← states.mapM (finalize divide)
    return (some row, ⟨states, true⟩)

/-- A whole run: open, and call until nothing comes. The child is exhausted after the first call. -/
def execute (aggregates : List NamedExpression) (batches : List (List Row)) :
    Except String (List (List (Cell ν))) := do
  let states ← aggregates.mapM openItem
  let first ← next cudf materialize columnType divide ⟨states, false⟩ batches
  let second ← next cudf materialize columnType divide first.2 []
  return first.1.toList ++ second.1.toList

end Batches

/-! ## One pass over everything -/

section Once

variable [AddCommMonoidWithOne ν] [LinearOrder ν]
variable (materialize : Expression → Row → Cell ν) (divide : ν → ν → ν)

/-- The aggregates of a table taken as one group. -/
def aggregatedOnce (aggregates : List NamedExpression) (rows : List Row) : List (Cell ν) :=
  aggregates.map (fun item => groupAggregate materialize divide item.expr rows)

/-- What an aggregate gives when its argument has no value: null, and zero for the counts. -/
def emptyAggregate : Expression → Cell ν
  | .countStar _ => some 0
  | .aggregate .count _ _ => some 0
  | _ => none

/-- No row has a value for the aggregate. -/
def NoValues (expr : Expression) (rows : List Row) : Prop :=
  match expr with
  | .aggregate _ argument _ => ∀ row ∈ rows, materialize argument row = none
  | _ => rows = []

variable (columnType : Expression → CudfType)

/-- The types that binding gives to an aggregate: the argument of `SUM`, `MIN` and `MAX` has the type
of the result, and an average is taken over numbers that are not decimals. -/
def BoundAggregate : Expression → Prop
  | .aggregate .sum argument type =>
    toCudfType type = .ok (columnType argument) ∧
      ((columnType argument).isArithmetic = true ∨ (columnType argument).isDecimal = true)
  | .aggregate .min argument type => toCudfType type = .ok (columnType argument)
  | .aggregate .max argument type => toCudfType type = .ok (columnType argument)
  | .aggregate .avg argument type =>
    toCudfType type = .ok cudfFloat64 ∧ (columnType argument).isArithmetic = true
  | expr => toCudfType expr.resultType = .ok cudfInt64

/-- The batches with a value for an argument. -/
def valuedBatches (argument : Expression) (batches : List (List Row)) : List (List Row) :=
  batches.filter (fun batch => batch.any (fun row => (materialize argument row).isSome))

/-- Every average over a column that is not `DOUBLE` has its values in one batch. -/
def AveragesInOneBatch (aggregates : List NamedExpression) (batches : List (List Row)) : Prop :=
  ∀ item ∈ aggregates, ∀ argument type, item.expr = .aggregate .avg argument type →
    columnType argument = cudfFloat64 ∨ (valuedBatches materialize argument batches).length ≤ 1

variable (cudf : CudfReduce ν)

/-- What the operator gives does not depend on how its input is cut into batches: one row with the
aggregates of the whole, and null or a count of zero where an aggregate has no value. -/
structure IndependentOfBatches (aggregates : List NamedExpression) (batches : List (List Row)) : Prop where
  once : execute cudf materialize columnType divide aggregates batches =
    .ok [aggregatedOnce materialize divide aggregates batches.flatten]
  empty : ∀ item ∈ aggregates, NoValues materialize item.expr batches.flatten →
    groupAggregate materialize divide item.expr batches.flatten = emptyAggregate item.expr

end Once

end KernelLake.ScalarAggregates
