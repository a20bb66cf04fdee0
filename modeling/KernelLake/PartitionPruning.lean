import KernelLake.IcebergManifests
import KernelLake.PartitionTransforms
import KernelLake.Pruning

/-!
File pruning from Iceberg partition values.

A file's partition value is compared with the transformed literal of a pushed predicate. Under
`identity` the value is the column's own; under `year`, `month`, `day` and `hour` it only says in which
period the column's values lie, and a literal of the same period proves nothing. Every other transform
is left alone.
-/

namespace KernelLake.PartitionPruning

open KernelLake.Types KernelLake.Expressions KernelLake.LogicalPlans
open KernelLake.IcebergManifests KernelLake.PartitionTransforms
open KernelLake.Pruning (asDouble doubleOrder)

/-! ## Table metadata -/

structure IcebergSchemaField where
  id : Int32
  name : String
  required : Bool
  type : String
  deriving DecidableEq

structure IcebergPartitionField where
  sourceId : Int32
  transform : String
  deriving DecidableEq

structure IcebergPartitionSpec where
  specId : Int32
  fields : List IcebergPartitionField
  deriving DecidableEq

structure IcebergSnapshot where
  snapshotId : Int64
  manifestList : String
  deriving DecidableEq

structure IcebergTableMetadata where
  currentSnapshotId : Option Int64
  snapshots : List IcebergSnapshot
  schemaFields : List IcebergSchemaField
  partitionSpecs : List IcebergPartitionSpec
  deriving DecidableEq

/-- The manifest list of the current snapshot. A snapshot id that is not listed has none, just as a table
without a snapshot. -/
def currentManifestList (metadata : IcebergTableMetadata) : Option String :=
  match metadata.currentSnapshotId with
  | none => none
  | some id =>
    (metadata.snapshots.find? (fun snapshot => snapshot.snapshotId = id)).map IcebergSnapshot.manifestList

def findPartitionSpec (metadata : IcebergTableMetadata) (specId : Int32) : Option IcebergPartitionSpec :=
  metadata.partitionSpecs.find? (fun spec => spec.specId = specId)

/-! ## Transforms -/

def isTimeTransform (transform : String) : Bool :=
  transform = "year" || transform = "month" || transform = "day" || transform = "hour"

def applyTransform (transform : String) (literal : LiteralStorage) (type : DataType) :
    Option LiteralStorage :=
  if transform = "identity" then some literal
  else if isTimeTransform transform then
    (applyTimeTransform transform literal type).map (fun value => .int64 (.ofInt value))
  else none

/-! ## Comparison -/

def toLiteralStorage : PartitionFieldValue → Option LiteralStorage
  | .int64 value => some (.int64 value)
  | .string value => some (.string value)
  | .monostate => none

/-- The three-way comparison of two literals; unlike for row groups, booleans are not compared. -/
def compareLiterals : LiteralStorage → LiteralStorage → Option Ordering
  | .string left, .string right =>
    some (if left < right then .lt else if right < left then .gt else .eq)
  | left, right =>
    match asDouble left, asDouble right with
    | some left, some right => some (doubleOrder left right)
    | _, _ => none

/-- Whether a comparison of the partition value with the literal leaves no row to an operator. -/
def provesEmpty (op : BinaryOperator) (cmp : Ordering) (isIdentity : Bool) : Bool :=
  match op with
  | .equal => cmp != .eq
  | .notEqual => isIdentity && cmp == .eq
  | .less => if isIdentity then cmp != .lt else cmp == .gt
  | .lessEqual => cmp == .gt
  | .greater => if isIdentity then cmp != .gt else cmp == .lt
  | .greaterEqual => cmp == .lt
  | _ => false

def sourceColumnName (metadata : IcebergTableMetadata) (sourceId : Int32) : String :=
  ((metadata.schemaFields.find? (fun field => field.id = sourceId)).map IcebergSchemaField.name).getD ""

/-- Whether a predicate rules out a file by one of its partition values. -/
def predicateRulesOut (field : IcebergPartitionField) (columnName : String)
    (partitionValue : LiteralStorage) (predicate : PushablePredicate) : Bool :=
  if predicate.columnName ≠ columnName then false
  else if predicate.literal = .monostate then false
  else
    match applyTransform field.transform predicate.literal predicate.literalType with
    | none => false
    | some transformedLiteral =>
      match compareLiterals partitionValue transformedLiteral with
      | none => false
      | some cmp => provesEmpty predicate.op cmp (field.transform = "identity")

def fieldRulesOut (metadata : IcebergTableMetadata) (predicates : List PushablePredicate)
    (field : IcebergPartitionField) (value : PartitionFieldValue) : Bool :=
  let columnName := sourceColumnName metadata field.sourceId
  if columnName = "" then false
  else
    match toLiteralStorage value with
    | none => false
    | some partitionValue => predicates.any (predicateRulesOut field columnName partitionValue)

def partitionValuesProveEmpty (metadata : IcebergTableMetadata) (spec : IcebergPartitionSpec)
    (partitionValues : List PartitionFieldValue) (predicates : List PushablePredicate) : Bool :=
  (spec.fields.zip partitionValues).any (fun (field, value) => fieldRulesOut metadata predicates field value)

end KernelLake.PartitionPruning
