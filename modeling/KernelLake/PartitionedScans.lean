import KernelLake.PhysicalPlanner

/-!
Scans of partitioned tables.

The fields of a partitioned table are those of its files followed by the partition columns, whose values
come from a file's location. Converting a scan sorts the required fields into columns to read and partition
columns to append, and cuts every file's partition values down to the latter. The scan operator then reads
chunks of a file and appends one constant column for each kept partition column. A cuDF table has as many
rows as its first column, so a chunk without columns has none.
-/

namespace KernelLake.PartitionedScans

open KernelLake.Types KernelLake.Expressions KernelLake.Evaluation KernelLake.LogicalPlans
open KernelLake.PhysicalPlans KernelLake.Pruning KernelLake.PhysicalPlanner

/-! ## Conversion -/

structure PartitionedFile extends ResolvedFile where
  partitionValues : List LiteralStorage

structure PartitionedFragment extends PhysicalFileFragment where
  partitionValues : List LiteralStorage

structure ParquetScanNode where
  fragments : List PartitionedFragment
  columns : List String
  schema : Schema
  totalFiles : Nat
  partitionColumns : List PartitionColumn
  originalColumnMap : List (Option Nat)

/-- The scan's fields, columns and partition columns collected so far. -/
structure Narrowing where
  fields : List Field
  columns : List String
  partitions : List PartitionColumn
  keptPartitions : List Nat
  columnMap : List (Option Nat)

def isRequired (source : LogicalScan) (field : Field) : Bool :=
  source.requiredColumns.contains field.name

/-- The partition column of a field's name, with its position. -/
def findPartition (source : LogicalScan) (field : Field) : Option (PartitionColumn × Nat) :=
  source.partitionColumns.zipIdx.find? (fun entry => entry.1.name = field.name)

def narrowField (source : LogicalScan) (state : Narrowing) (entry : Field × Nat) : Narrowing :=
  if isRequired source entry.1 then
    let placed :=
      { state with
        columnMap := state.columnMap.set entry.2 (some state.fields.length)
        fields := state.fields ++ [entry.1] }
    match findPartition source entry.1 with
    | some column =>
      { placed with
        partitions := placed.partitions ++ [column.1]
        keptPartitions := placed.keptPartitions ++ [column.2] }
    | none => { placed with columns := placed.columns ++ [entry.1.name] }
  else state

def narrow (source : LogicalScan) : Narrowing :=
  source.schema.zipIdx.foldl (narrowField source) ⟨[], [], [], [], List.replicate source.schema.length none⟩

/-- A query that needs no column at all still reads the first one, for the number of rows. -/
def keepRowCount (source : LogicalScan) (state : Narrowing) : Narrowing :=
  match source.schema with
  | [] => state
  | fallback :: _ =>
    if state.columns.isEmpty && state.partitions.isEmpty then
      { state with
        columnMap := state.columnMap.set 0 (some state.fields.length)
        fields := state.fields ++ [fallback]
        columns := state.columns ++ [fallback.name] }
    else state

/-- A file's fragment; a file is left out if all of its row groups are. -/
def partitionedFragment (source : LogicalScan) (keptPartitions : List Nat) (file : PartitionedFile) :
    Option PartitionedFragment :=
  let decision := evaluatePruning file.metadata source.pushablePredicates
  if decision.selectedRowGroups.isEmpty && !file.metadata.rowGroups.isEmpty then none
  else some
    { path := file.metadata.path
      fileRowCount := file.rowCount
      selectedRowGroups := decision.selectedRowGroups
      partitionValues := keptPartitions.filterMap (file.partitionValues[·]?) }

def convertScan (source : LogicalScan) (files : List PartitionedFile) : ParquetScanNode :=
  let narrowed := narrow source
  let kept := keepRowCount source narrowed
  { fragments := files.filterMap (partitionedFragment source narrowed.keptPartitions)
    columns := kept.columns
    schema := kept.fields
    totalFiles := files.length
    partitionColumns := kept.partitions
    originalColumnMap := kept.columnMap }

/-! ## The scan operator -/

/-- A cuDF table. -/
structure Table where
  columns : List (List Value)

def Table.numRows (table : Table) : Nat :=
  (table.columns.head?.map List.length).getD 0

def Table.rows (table : Table) : List Row :=
  (List.range table.numRows).map (fun index => table.columns.map (fun column => column.getD index .raised))

/-- A row of a file, by column name. -/
abbrev FileRow := String → Value

/-- cuDF's chunked Parquet reader: it delivers the rows in order, in chunks of its own choice. -/
structure ChunkedReader where
  chunks : List FileRow → List (List FileRow)
  complete : ∀ rows, (chunks rows).flatten = rows

/-- The rows of the row groups of every file. -/
abbrev RowGroups := String → Nat → List FileRow

def selectedRows (rowGroups : RowGroups) (fragment : PhysicalFileFragment) : List FileRow :=
  fragment.selectedRowGroups.flatMap (rowGroups fragment.path)

/-- The table of some columns of a chunk. -/
def chunkTable (columns : List String) (chunk : List FileRow) : Table :=
  ⟨columns.map (fun name => chunk.map (· name))⟩

/-- The tables that a reader delivers, those without rows left out. -/
def readChunks (reader : ChunkedReader) (columns : List String) (rows : List FileRow) : List Table :=
  ((reader.chunks rows).map (chunkTable columns)).filter (fun table => table.numRows ≠ 0)

/-- The constants of a fragment's kept partition columns. -/
def partitionConstants (node : ParquetScanNode) (fragment : PartitionedFragment) : List Value :=
  (fragment.partitionValues.zip node.partitionColumns).map (fun pair => literalValue pair.1 pair.2.type)

def appendPartitions (node : ParquetScanNode) (fragment : PartitionedFragment) (table : Table) : Table :=
  ⟨table.columns ++ (partitionConstants node fragment).map (List.replicate table.numRows)⟩

/-- The batches that a scan delivers: of all files together, or file by file where there are partition
columns to append. -/
def scanBatches (reader : ChunkedReader) (rowGroups : RowGroups) (node : ParquetScanNode) : List Table :=
  if node.partitionColumns.isEmpty then
    readChunks reader node.columns
      (node.fragments.flatMap (fun fragment => selectedRows rowGroups fragment.toPhysicalFileFragment))
  else
    node.fragments.flatMap (fun fragment =>
      (readChunks reader node.columns (selectedRows rowGroups fragment.toPhysicalFileFragment)).map
        (appendPartitions node fragment))

def scanRows (reader : ChunkedReader) (rowGroups : RowGroups) (node : ParquetScanNode) : List Row :=
  (scanBatches reader rowGroups node).flatMap Table.rows

end KernelLake.PartitionedScans
