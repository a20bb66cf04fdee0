import KernelLake.PartitionPruning

/-!
Resolution of an Iceberg table into its files.

The manifests of the current snapshot list data files and delete files. A data file is live unless its
entry says that it was removed; pruned files are left out, and so are files with at least as many
deleted positions as records. Position deletes are counted, not applied: a file that is deleted in part
is an error, as are equality deletes and files in other formats than Parquet.
-/

namespace KernelLake.IcebergResolution

open KernelLake.Types KernelLake.Expressions KernelLake.LogicalPlans
open KernelLake.Pruning (FileMetadata)
open KernelLake.IcebergManifests KernelLake.PartitionPruning

/-! ## Schemas -/

def parseDigits (digits : List Char) : Option Nat :=
  if digits.isEmpty then none
  else digits.foldlM (fun number digit =>
    if digit.isDigit then some (number * 10 + (digit.toNat - '0'.toNat)) else none) 0

/-- A whole text read as a 32-bit integer. -/
def parseInt32 (text : List Char) : Option Int := do
  let number ← match text with
    | '-' :: digits => (parseDigits digits).map (fun number => -(number : Int))
    | digits => (parseDigits digits).map (fun number => (number : Int))
  if -2 ^ 31 ≤ number ∧ number < 2 ^ 31 then some number else none

/-- The precision and scale of a `decimal(P,S)` type. -/
def parseDecimal (type : String) : Option (Int × Int) :=
  let opening := "decimal(".toList
  let chars := type.toList
  if chars.length < opening.length + 2 ∨ ¬ opening.isPrefixOf chars ∨ chars.getLast? ≠ some ')' then none
  else
    match ((chars.drop opening.length).dropLast).span (· ≠ ',') with
    | (precision, ',' :: scale) => do return (← parseInt32 precision, ← parseInt32 scale)
    | _ => none

def translateType (field : IcebergSchemaField) : Except String DataType :=
  let nullable := !field.required
  match field.type with
  | "boolean" => .ok (booleanType nullable)
  | "int" => .ok (int32Type nullable)
  | "long" => .ok (int64Type nullable)
  | "float" => .ok (float32Type nullable)
  | "double" => .ok (float64Type nullable)
  | "date" => .ok (date32Type nullable)
  | "timestamp" => .ok (timestampType nullable)
  | "timestamptz" => .ok (timestampType nullable)
  | "string" => .ok (stringType nullable)
  | type =>
    match parseDecimal type with
    | some (precision, scale) => .ok (decimalType precision scale nullable)
    | none => .error ("iceberg schema: column '" ++ field.name ++ "' has unsupported Iceberg type '" ++ type ++
        "' (time/uuid/fixed/binary and nested list/map/struct types aren't supported yet)")

def icebergSchemaToKernellakeSchema (fields : List IcebergSchemaField) : Except String Schema :=
  fields.mapM (fun field => do return ⟨field.name, ← translateType field⟩)

/-! ## Position deletes -/

/-- A row of a position delete file. -/
structure DeleteRow where
  filePath : Option String
  position : Option Int64
  deriving DecidableEq

/-- The record batches of a position delete file, as its reader returns them. -/
inductive DeleteBatches
  | done
  | failed (message : String)
  | mistyped (rest : DeleteBatches)
  | batch (rows : List DeleteRow) (rest : DeleteBatches)

/-- An opened position delete file: whether it has both columns, and its batches. -/
structure DeleteFile where
  hasColumns : Bool
  batches : DeleteBatches

/-- A data file as its footer describes it. -/
structure InspectedFile where
  metadata : FileMetadata
  schema : Schema

/-- What resolution reads: Avro files, position delete files and Parquet footers. -/
structure IcebergStore extends AvroStore where
  openDeleteFile : String → Except String DeleteFile
  inspectParquetFile : String → Except String InspectedFile

/-- How often each path occurs. -/
abbrev PathCounts := List (String × Nat)

def addCount (path : String) (amount : Nat) : PathCounts → PathCounts
  | [] => [(path, amount)]
  | (other, count) :: rest =>
    if other = path then (other, count + amount) :: rest else (other, count) :: addCount path amount rest

def deleteFileError (path message : String) : String :=
  "iceberg position delete file '" ++ path ++ "': " ++ message

/-- The rows of a batch are counted under the path they name; the position is not looked at. -/
def countRows (path : String) (counts : PathCounts) (rows : List DeleteRow) : Except String PathCounts :=
  rows.zipIdx.foldlM (fun counts (row, index) =>
    match row.filePath with
    | none => .error (deleteFileError path ("row " ++ toString index ++
        " has a null 'file_path' -- required by the Iceberg spec"))
    | some referenced => .ok (addCount referenced 1 counts)) counts

def countBatches (path : String) (counts : PathCounts) : DeleteBatches → Except String PathCounts
  | .done => .ok counts
  | .failed message => .error (deleteFileError path ("failed to read: " ++ message))
  | .mistyped _ => .error (deleteFileError path
      "'file_path'/'pos' columns have an unexpected Arrow type (expected string/int64)")
  | .batch rows rest => do countBatches path (← countRows path counts rows) rest

def readPositionDeleteCounts (store : IcebergStore) (path : String) : Except String PathCounts := do
  let file ← store.openDeleteFile path
  if !file.hasColumns then
    .error (deleteFileError path ("missing required column 'file_path' or 'pos' -- not a valid " ++
      "position-delete file (an equality-delete file misidentified as one, perhaps?)"))
  else countBatches path [] file.batches

/-! ## Manifests of a snapshot -/

def isLiveStatus (status : Int32) : Bool :=
  status = 0 || status = 1

def resolutionError (message : String) : String :=
  "iceberg table resolution: " ++ message

/-- Position deletes are read from live Parquet files; every other live delete file is an error. -/
def checkDeleteFile (deleteFile : ManifestDataFileEntry) : Except String Unit :=
  if deleteFile.content = 2 then
    .error (resolutionError ("table has an equality delete file ('" ++ deleteFile.filePath ++
      "') -- equality deletes aren't supported yet, so this table can't be read correctly"))
  else if deleteFile.content ≠ 1 then
    .error (resolutionError ("delete manifest entry '" ++ deleteFile.filePath ++
      "' has unexpected data_file.content " ++ toString deleteFile.content.toInt ++
      " (expected POSITION_DELETES=1)"))
  else if deleteFile.fileFormat ≠ "PARQUET" then
    .error (resolutionError ("position delete file '" ++ deleteFile.filePath ++ "' has format '" ++
      deleteFile.fileFormat ++ "' -- only PARQUET is supported"))
  else .ok ()

def addDeleteFile (store : IcebergStore) (counts : PathCounts) (deleteFile : ManifestDataFileEntry) :
    Except String PathCounts :=
  if !isLiveStatus deleteFile.status then .ok counts
  else do
    checkDeleteFile deleteFile
    return (← readPositionDeleteCounts store deleteFile.filePath).foldl
      (fun counts (path, count) => addCount path count counts) counts

/-- The live data files of a manifest that pruning leaves. -/
def liveDataFiles (metadata : IcebergTableMetadata) (spec : Option IcebergPartitionSpec)
    (predicates : List PushablePredicate) :
    List ManifestDataFileEntry → Except String (List ManifestDataFileEntry)
  | [] => .ok []
  | dataFile :: rest =>
    if !isLiveStatus dataFile.status then liveDataFiles metadata spec predicates rest
    else if dataFile.fileFormat ≠ "PARQUET" then
      .error (resolutionError ("data file '" ++ dataFile.filePath ++ "' has format '" ++
        dataFile.fileFormat ++ "' -- only PARQUET is supported"))
    else if spec.any (fun spec =>
        partitionValuesProveEmpty metadata spec dataFile.partitionValues predicates) then
      liveDataFiles metadata spec predicates rest
    else do return dataFile :: (← liveDataFiles metadata spec predicates rest)

/-- What the manifests of a snapshot hold: its live data files and the deleted positions per file. -/
structure SnapshotFiles where
  dataFiles : List ManifestDataFileEntry
  deletedPositionCounts : PathCounts

def addManifest (store : IcebergStore) (metadata : IcebergTableMetadata)
    (predicates : List PushablePredicate) (files : SnapshotFiles) (manifest : ManifestListEntry) :
    Except String SnapshotFiles :=
  if manifest.content = 1 then do
    let deletes ← readManifest store.toAvroStore manifest.manifestPath
    return { files with
             deletedPositionCounts := ← deletes.foldlM (addDeleteFile store) files.deletedPositionCounts }
  else do
    let entries ← readManifest store.toAvroStore manifest.manifestPath
    let live ← liveDataFiles metadata (findPartitionSpec metadata manifest.partitionSpecId) predicates entries
    return { files with dataFiles := files.dataFiles ++ live }

def readSnapshot (store : IcebergStore) (metadata : IcebergTableMetadata)
    (predicates : List PushablePredicate) (manifestListPath : String) : Except String SnapshotFiles := do
  (← readManifestList store.toAvroStore manifestListPath).foldlM (addManifest store metadata predicates)
    ⟨[], []⟩

/-! ## Files -/

/-- A file with deleted positions is dropped when they are as many as its records, and else an error. -/
def survivingDataFiles (counts : PathCounts) :
    List ManifestDataFileEntry → Except String (List ManifestDataFileEntry)
  | [] => .ok []
  | dataFile :: rest =>
    match counts.lookup dataFile.filePath with
    | none => do return dataFile :: (← survivingDataFiles counts rest)
    | some count =>
      if dataFile.recordCount.toInt ≤ count then survivingDataFiles counts rest
      else .error (resolutionError ("data file '" ++ dataFile.filePath ++ "' has " ++ toString count ++
        " row(s) deleted out of " ++ toString dataFile.recordCount.toInt ++ " -- partial row-level " ++
        "deletes aren't supported yet, only whole-file deletes"))

/-- What is wrong with a file's schema: its first field that differs, or its number of fields. -/
def schemaMismatch (path : String) (tableSchema fileSchema : Schema) : String :=
  let evolved := " -- reading files written under a different (evolved) schema version isn't supported yet"
  match (tableSchema.zip fileSchema).zipIdx.find? (fun (fields, _) => fields.1 ≠ fields.2) with
  | some ((tableField, fileField), index) =>
    resolutionError ("data file '" ++ path ++ "' doesn't match the table's current schema at field " ++
      toString index ++ ": table has " ++ tableField.name ++ " " ++ tableField.type.toString ++
      ", file has " ++ fileField.name ++ " " ++ fileField.type.toString ++ evolved)
  | none =>
    resolutionError ("data file '" ++ path ++ "' doesn't match the table's current schema: different " ++
      "column counts (table has " ++ toString tableSchema.length ++ ", file has " ++
      toString fileSchema.length ++ ")" ++ evolved)

def inspectDataFile (store : IcebergStore) (schema : Schema) (dataFile : ManifestDataFileEntry) :
    Except String FileMetadata := do
  let file ← store.inspectParquetFile dataFile.filePath
  if file.schema ≠ schema then .error (schemaMismatch dataFile.filePath schema file.schema)
  else return file.metadata

structure ResolvedTable where
  files : List FileMetadata
  schema : Schema

def resolveIcebergTable (store : IcebergStore) (metadata : IcebergTableMetadata)
    (predicates : List PushablePredicate) : Except String ResolvedTable := do
  let schema ← icebergSchemaToKernellakeSchema metadata.schemaFields
  match currentManifestList metadata with
  | none => return ⟨[], schema⟩
  | some manifestListPath => do
    let snapshot ← readSnapshot store metadata predicates manifestListPath
    let surviving ← survivingDataFiles snapshot.deletedPositionCounts snapshot.dataFiles
    return ⟨← surviving.mapM (inspectDataFile store schema), schema⟩

end KernelLake.IcebergResolution
