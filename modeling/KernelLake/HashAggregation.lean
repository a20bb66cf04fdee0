import KernelLake.Evaluation
import KernelLake.Library.Grouping
import KernelLake.LogicalPlans
import Mathlib.Algebra.Order.Ring.Int
import Mathlib.Algebra.Ring.Defs

/-!
The grouped aggregation operator of the GPU backend.

Every batch is grouped on its own; the partial results wait in a buffer and are folded into one
accumulated table when they have as many rows as it has. A table is a list of rows of nullable
cells, the group keys first. Cells hold values of an arbitrary exact arithmetic, and `materialize`
is the evaluation of a compiled expression on one row.

The grouping primitives of the library are a parameter: `CudfGroupby` holds them together with what
they promise for one table. Their order of rows is left open.
-/

namespace KernelLake.HashAggregation

open KernelLake.Expressions KernelLake.Evaluation KernelLake.LogicalPlans
open KernelLake.Library.Relations KernelLake.Library.Grouping

variable {ν : Type}

abbrev Cell (ν : Type) := Option ν

abbrev Table (ν : Type) := List (List (Cell ν))

/-! ## Library primitives -/

/-- The aggregations requested from a grouping. `countValid` counts the cells that are not null. -/
inductive GroupbyAggregation
  | sum | min | max | countValid
  deriving DecidableEq

section Primitives

variable [AddCommMonoidWithOne ν] [LinearOrder ν]

def aggregateColumn : GroupbyAggregation → List (Cell ν) → Cell ν
  | .sum => reducePresent (· + ·)
  | .min => reducePresent min
  | .max => reducePresent max
  | .countValid => fun cells => some ((cells.filter Option.isSome).length : ν)

/-- One aggregation for each value column. -/
def aggregateColumns (requests : List GroupbyAggregation) (rows : List (List (Cell ν))) :
    List (Cell ν) :=
  requests.mapIdx (fun index request =>
    aggregateColumn request (rows.map (fun row => row.getD index none)))

/-- A group whose key has a null is not reported. -/
def keyPresent (keys : List (Cell ν)) : Bool :=
  keys.all Option.isSome

/-- Grouping and removal of duplicates, as the library documents them: one row for each key or
each different row, in no particular order. -/
structure CudfGroupby (ν : Type) [AddCommMonoidWithOne ν] [LinearOrder ν] where
  groupby : List GroupbyAggregation → List (List (Cell ν) × List (Cell ν)) →
    List (List (Cell ν) × List (Cell ν))
  distinctRows : Table ν → Table ν
  groupby_perm : ∀ requests entries, (groupby requests entries).Perm
    (groupEntries (aggregateColumns requests) (entries.filter (fun entry => keyPresent entry.1)))
  distinctRows_perm : ∀ table, (distinctRows table).Perm (distinct table)

/-- The primitives with groups in order of first appearance. -/
def CudfGroupby.inOrder (ν : Type) [AddCommMonoidWithOne ν] [LinearOrder ν] : CudfGroupby ν where
  groupby requests entries :=
    groupEntries (aggregateColumns requests) (entries.filter (fun entry => keyPresent entry.1))
  distinctRows := distinct
  groupby_perm _ _ := .refl _
  distinctRows_perm _ := .refl _

end Primitives

/-! ## Opening the operator -/

inductive ValueColumnKind
  | expression | countStarOnes | countColumnOnes
  deriving DecidableEq

inductive AggregateOutputKind
  | direct | average
  deriving DecidableEq

inductive PhysicalAggKind
  | sum | min | max
  deriving DecidableEq

def makePhysicalAggregation : PhysicalAggKind → GroupbyAggregation
  | .sum => .sum
  | .min => .min
  | .max => .max

/-- The operator as constructed. -/
structure HashAggregateOperator where
  groupBy : List NamedExpression
  aggregates : List NamedExpression
  maxDistinctKeys : Nat

/-- One physical value column: its argument, which `COUNT(*)` has none of, how the column is
built, and how it is aggregated. The source keeps these in three parallel vectors. -/
structure ValueColumn where
  argument : Option Expression
  valueColumnKind : ValueColumnKind
  physicalAggKind : PhysicalAggKind

/-- How one logical aggregate is read from its physical columns. -/
structure OutputColumn where
  aggregateOutputKind : AggregateOutputKind
  isCountResult : Bool

/-- What opening leaves in the operator. -/
structure Compiled where
  valueColumns : List ValueColumn
  outputColumns : List OutputColumn
  countDistinctArgument : Option Expression

def Compiled.pushBack (compiled : Compiled) (columns : List ValueColumn) (output : OutputColumn) :
    Compiled :=
  { compiled with
    valueColumns := compiled.valueColumns ++ columns
    outputColumns := compiled.outputColumns ++ [output] }

def notAggregateMessage (name : String) : String :=
  "HashAggregateOperator item '" ++ name ++ "' is not an AggregateExpression"

def combinedDistinctMessage : String :=
  "COUNT(DISTINCT ...) cannot be combined with another aggregate in the same GROUP BY on the " ++
    "GPU backend (see HashAggregateOperator's own class comment for why; the CPU backend has no " ++
    "such restriction)"

/-- What `HashAggregateOperator::open` makes of one aggregate. -/
def openAggregate (aggregateCount : Nat) (compiled : Compiled) (item : NamedExpression) :
    Except String Compiled :=
  match item.expr with
  | .countStar _ =>
    .ok (compiled.pushBack [⟨none, .countStarOnes, .sum⟩] ⟨.direct, true⟩)
  | .aggregate function argument _ =>
    match function with
    | .countDistinct =>
      if aggregateCount ≠ 1 then .error combinedDistinctMessage
      else .ok { compiled with countDistinctArgument := some argument }
    | .sum => .ok (compiled.pushBack [⟨some argument, .expression, .sum⟩] ⟨.direct, false⟩)
    | .min => .ok (compiled.pushBack [⟨some argument, .expression, .min⟩] ⟨.direct, false⟩)
    | .max => .ok (compiled.pushBack [⟨some argument, .expression, .max⟩] ⟨.direct, false⟩)
    | .count => .ok (compiled.pushBack [⟨some argument, .countColumnOnes, .sum⟩] ⟨.direct, true⟩)
    | .avg =>
      .ok (compiled.pushBack
        [⟨some argument, .expression, .sum⟩, ⟨some argument, .countColumnOnes, .sum⟩]
        ⟨.average, false⟩)
  | _ => .error (notAggregateMessage item.name)

/-- Construction and opening: the operator refuses to run without a key. -/
def HashAggregateOperator.openOperator (operator : HashAggregateOperator) : Except String Compiled :=
  if operator.groupBy.isEmpty then
    .error "HashAggregateOperator requires at least one GROUP BY column"
  else
    operator.aggregates.foldlM (openAggregate operator.aggregates.length) ⟨[], [], none⟩

/-! ## Batches -/

/-- What the operator keeps between batches. -/
structure Progress (ν : Type) where
  pendingPartials : List (Table ν)
  pendingRows : Nat
  accumulated : Option (Table ν)
  anyBatchSeen : Bool

def Progress.initial : Progress ν := ⟨[], 0, none, false⟩

/-- The partial result of one more batch waits with the others. -/
def Progress.addPartial (progress : Progress ν) (partialTable : Table ν) : Progress ν :=
  { progress with
    anyBatchSeen := true
    pendingRows := progress.pendingRows + partialTable.length
    pendingPartials := progress.pendingPartials ++ [partialTable] }

section Batches

variable [AddCommMonoidWithOne ν] [LinearOrder ν]
variable (cudf : CudfGroupby ν) (materialize : Expression → Row → Cell ν)
variable (operator : HashAggregateOperator) (compiled : Compiled)

/-- The cell of a value column on one row. `COUNT(*)` has no argument to read, and `COUNT` takes
over only where its argument is null. -/
def materializeValueColumn (column : ValueColumn) (row : Row) : Cell ν :=
  let argument := column.argument.bind (materialize · row)
  match column.valueColumnKind with
  | .expression => argument
  | .countStarOnes => some 1
  | .countColumnOnes => argument.map (fun _ => 1)

def groupKeys (row : Row) : List (Cell ν) :=
  operator.groupBy.map (fun item => materialize item.expr row)

def buildCombinedColumns (batch : List Row) : Table ν :=
  batch.map (fun row =>
    groupKeys materialize operator row ++
      compiled.valueColumns.map (fun column => materializeValueColumn materialize column row))

/-- The columns of a row, cut after the group keys. -/
def splitRow (groupByCount : Nat) (row : List (Cell ν)) : List (Cell ν) × List (Cell ν) :=
  (row.take groupByCount, row.drop groupByCount)

def runGroupbyAndAssemble (table : Table ν) : Table ν :=
  let requests := compiled.valueColumns.map (fun column => makePhysicalAggregation column.physicalAggKind)
  (cudf.groupby requests (table.map (splitRow operator.groupBy.length))).map
    (fun entry => entry.1 ++ entry.2)

/-- One pass over a table: grouping, or removal of duplicates when a distinct count is taken. -/
def summariseTable (table : Table ν) : Table ν :=
  match compiled.countDistinctArgument with
  | some _ => cudf.distinctRows table
  | none => runGroupbyAndAssemble cudf operator compiled table

/-- The columns of one batch before any grouping. -/
def batchColumns (batch : List Row) : Table ν :=
  match compiled.countDistinctArgument with
  | some argument => batch.map (fun row => groupKeys materialize operator row ++ [materialize argument row])
  | none => buildCombinedColumns materialize operator compiled batch

def distinctKeysMessage (rows : Nat) : String :=
  "HashAggregateOperator: " ++
    (if compiled.countDistinctArgument.isSome then
      "distinct (group-key, COUNT(DISTINCT) argument) row count" else "distinct key count") ++
    " " ++ toString rows ++ " exceeds max_distinct_keys (" ++ toString operator.maxDistinctKeys ++ ")"

/-- The table the pending partials fold into. A first partial on its own is taken over as it is. -/
def foldPending (progress : Progress ν) : Table ν :=
  match progress.accumulated, progress.pendingPartials with
  | none, [partialTable] => partialTable
  | accumulated, pending => summariseTable cudf operator compiled (accumulated.toList ++ pending).flatten

def flushPending (progress : Progress ν) : Except String (Progress ν) :=
  if progress.pendingPartials.isEmpty then .ok progress
  else
    let accumulated := foldPending cudf operator compiled progress
    if accumulated.length > operator.maxDistinctKeys then
      .error (distinctKeysMessage operator compiled accumulated.length)
    else .ok { progress with pendingPartials := [], pendingRows := 0, accumulated := some accumulated }

def processBatch (progress : Progress ν) (batch : List Row) : Except String (Progress ν) :=
  let progress := progress.addPartial
    (summariseTable cudf operator compiled (batchColumns materialize operator compiled batch))
  match progress.accumulated with
  | none => flushPending cudf operator compiled progress
  | some accumulated =>
    if progress.pendingRows ≥ accumulated.length then flushPending cudf operator compiled progress
    else .ok progress

/-! ## The result -/

variable (divide : ν → ν → ν)

/-- The output cells of one group, read from its physical columns in order: an average takes two,
everything else one. -/
def finalCells : List OutputColumn → List (Cell ν) → List (Cell ν)
  | [], _ => []
  | ⟨.direct, isCount⟩ :: outputs, cells =>
    let cell := cells.getD 0 none
    (if isCount then some (cell.getD 0) else cell) :: finalCells outputs (cells.drop 1)
  | ⟨.average, _⟩ :: outputs, cells =>
    let sum := cells.getD 0 none
    let count := cells.getD 1 none
    (sum.bind (fun total => count.map (divide total))) :: finalCells outputs (cells.drop 2)

def finalize (progress : Progress ν) : Except String (Table ν) :=
  if !progress.anyBatchSeen then .ok []
  else
    match progress.accumulated with
    | none => .error "no accumulated table"
    | some accumulated =>
      match compiled.countDistinctArgument with
      | some _ =>
        .ok ((cudf.groupby [.countValid] (accumulated.map (splitRow operator.groupBy.length))).map
          (fun entry => entry.1 ++ entry.2))
      | none =>
        .ok (accumulated.map (fun row =>
          row.take operator.groupBy.length ++
            finalCells divide compiled.outputColumns (row.drop operator.groupBy.length)))

/-- `HashAggregateOperator::next`, a whole run: open, absorb every batch, flush what is left, and finish. -/
def execute (batches : List (List Row)) : Except String (Table ν) := do
  let compiled ← operator.openOperator
  let progress ← batches.foldlM (processBatch cudf materialize operator compiled) .initial
  let progress ← flushPending cudf operator compiled progress
  finalize cudf operator compiled divide progress

end Batches

/-! ## One grouping of everything -/

section Once

variable [AddCommMonoidWithOne ν] [LinearOrder ν]
variable (materialize : Expression → Row → Cell ν) (divide : ν → ν → ν)

/-- An aggregate over all rows of a group. -/
def groupAggregate (expr : Expression) (group : List Row) : Cell ν :=
  match expr with
  | .countStar _ => some (group.length : ν)
  | .aggregate function argument _ =>
    let cells := group.map (materialize argument)
    let count := ((cells.filter Option.isSome).length : ν)
    match function with
    | .sum => reducePresent (· + ·) cells
    | .min => reducePresent min cells
    | .max => reducePresent max cells
    | .count => some count
    | .avg => (reducePresent (· + ·) cells).map (fun total => divide total count)
    | .countDistinct => some ((distinct (cells.filter Option.isSome)).length : ν)
  | _ => none

/-- The groups of a table, each with its aggregates, from one pass over all rows. -/
def groupedOnce (operator : HashAggregateOperator) (rows : List Row) : Table ν :=
  (groupRows (groupKeys materialize operator) rows).map (fun group =>
    group.1 ++ operator.aggregates.map (fun item => groupAggregate materialize divide item.expr group.2))

/-- The aggregates that are computed column by column. -/
def columnwise : Expression → Bool
  | .countStar _ => true
  | .aggregate function _ _ => function != .countDistinct
  | _ => false

/-- The lists of aggregates the operator accepts: a distinct count stands alone. -/
inductive Supported : List NamedExpression → Prop
  | columns {aggregates : List NamedExpression}
      (each : ∀ item ∈ aggregates, columnwise item.expr = true) : Supported aggregates
  | distinctCount (argument : Expression) (type : Types.DataType) (name : String) :
      Supported [⟨.aggregate .countDistinct argument type, name⟩]

/-- The rows the operator must hold for a table: its different keys, or the different pairs of key
and argument of a distinct count. -/
def heldRows (operator : HashAggregateOperator) (rows : List Row) : Nat :=
  match operator.aggregates with
  | [⟨.aggregate .countDistinct argument _, _⟩] =>
    (distinct (rows.map (fun row => groupKeys materialize operator row ++ [materialize argument row]))).length
  | _ => (distinct (rows.map (groupKeys materialize operator))).length

end Once

end KernelLake.HashAggregation
