import KernelLake.Comparisons
import KernelLake.LogicalPlans

/-!
Row-group pruning from column statistics.

A row group is skipped when one of the pushed predicates is refuted by the recorded minimum and
maximum of its column. Literals and statistics are compared through one conversion to double; a
missing statistic or an incomparable pair means that the group is kept.
-/

namespace KernelLake.Pruning

open KernelLake.Types KernelLake.Expressions KernelLake.Evaluation KernelLake.LogicalPlans
open KernelLake.Library.Doubles KernelLake.Comparisons

structure ColumnStatistics where
  hasMinMax : Bool := false
  minValue : LiteralStorage := .monostate
  maxValue : LiteralStorage := .monostate
  deriving DecidableEq

structure RowGroupMetadata where
  index : Nat
  rowCount : Int
  columnStatistics : List (String × ColumnStatistics)
  deriving DecidableEq

/-- A file's row groups, numbered by position. -/
structure FileMetadata where
  path : String
  rowGroups : List RowGroupMetadata
  numbered : rowGroups.map RowGroupMetadata.index = List.range rowGroups.length

theorem numbered_nil : ([] : List RowGroupMetadata).map RowGroupMetadata.index =
    List.range ([] : List RowGroupMetadata).length := rfl

structure ScanDecision where
  file : String
  selectedRowGroups : List Nat
  skippedRowGroups : List Nat
  reasons : List String
  deriving DecidableEq

def asDouble : LiteralStorage → Option Float
  | .int64 value => some (ofInteger value.toInt)
  | .double value => some value
  | _ => none

/-- The order of two doubles, with every pair that is neither less nor greater taken as equal. -/
def doubleOrder (left right : Float) : Ordering :=
  if compareDoubles left right = some .lt then .lt
  else if compareDoubles left right = some .gt then .gt
  else .eq

/-- The three-way comparison of two literals, or nothing where they are not comparable. -/
def compareLiterals : LiteralStorage → LiteralStorage → Option Ordering
  | .string left, .string right =>
    some (if left < right then .lt else if right < left then .gt else .eq)
  | .bool left, .bool right => some (if left == right then .eq else if right then .lt else .gt)
  | left, right =>
    match asDouble left, asDouble right with
    | some left, some right => some (doubleOrder left right)
    | _, _ => none

def literalToString : LiteralStorage → String
  | .string value => "'" ++ value ++ "'"
  | .int64 value => toString value.toInt
  | .double value => formatFixed value
  | .bool value => if value then "TRUE" else "FALSE"
  | .monostate => "NULL"

/-- What the explanation of a skipped row group says about the operator. -/
def refutationText : BinaryOperator → String
  | .equal => ": literal outside range"
  | .notEqual => ": all values equal literal"
  | .less => ": min >= literal"
  | .lessEqual => ": min > literal"
  | .greater => ": max <= literal"
  | .greaterEqual => ": max < literal"
  | _ => ""

/-- The reason why a predicate holds of no row, when the statistics prove it. -/
def predicateProvesEmpty (predicate : PushablePredicate) (stats : ColumnStatistics) :
    Option String :=
  if !stats.hasMinMax then none
  else if predicate.literal = .monostate then none
  else
    match compareLiterals stats.minValue predicate.literal,
        compareLiterals stats.maxValue predicate.literal with
    | some lower, some upper =>
      if refutes predicate.op lower upper then
        some (predicate.columnName ++ " " ++ predicate.op.toString ++ " " ++
          literalToString predicate.literal ++ " vs [" ++ literalToString stats.minValue ++ ", " ++
          literalToString stats.maxValue ++ "]" ++ refutationText predicate.op)
      else none
    | _, _ => none

def RowGroupMetadata.statisticsOf (group : RowGroupMetadata) (columnName : String) :
    Option ColumnStatistics :=
  group.columnStatistics.lookup columnName

/-- The reason of the first predicate that a row group's statistics refute. -/
def skipReason (group : RowGroupMetadata) (predicates : List PushablePredicate) : Option String :=
  (predicates.findSome? (fun predicate =>
    (group.statisticsOf predicate.columnName).bind (predicateProvesEmpty predicate))).map
    (fun reason => "row_group " ++ toString group.index ++ " skipped: " ++ reason)

def evaluatePruning (file : FileMetadata) (predicates : List PushablePredicate) : ScanDecision :=
  let skipped := file.rowGroups.filter (fun group => (skipReason group predicates).isSome)
  let selected := file.rowGroups.filter (fun group => (skipReason group predicates).isNone)
  let reasons := file.rowGroups.filterMap (skipReason · predicates)
  { file := file.path
    selectedRowGroups := selected.map RowGroupMetadata.index
    skippedRowGroups := skipped.map RowGroupMetadata.index
    reasons :=
      if skipped.isEmpty && !predicates.isEmpty then
        reasons ++ ["no row groups could be proven safe to skip from available statistics"]
      else reasons }

end KernelLake.Pruning
