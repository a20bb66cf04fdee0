import KernelLake.Types

/-!
Manifest lists and manifests.

Both are Avro container files whose records are read one after the other until a read fails. The Avro
library is a parameter: it turns the bytes of a file into the results of its successive reads. The
reading loops stop at the first read that gives no record, whatever the reason.
-/

namespace KernelLake.IcebergManifests

open KernelLake.Types

/-! ## Avro values -/

/-- A decoded Avro value. A union stands around its live branch; types that no reader asks for are
`other`. -/
inductive AvroValue
  | null
  | int (value : Int32)
  | long (value : Int64)
  | string (value : String)
  | union (branch : AvroValue)
  | record (fields : List (String × AvroValue))
  | other

/-- The results of the successive reads of a container file. -/
inductive AvroStream
  | endOfFile
  | decodeError
  | record (value : AvroValue) (rest : AvroStream)

/-- What reading a container file needs from outside: the bytes of a file, and its reads. -/
structure AvroStore where
  readAllBytes : String → Except String (List UInt8)
  openAvroReader : List UInt8 → Except String AvroStream

def getByName : AvroValue → String → Option AvroValue
  | .record fields, name => fields.lookup name
  | _, _ => none

/-- The live branch of a union, or the value itself. -/
def liveBranch : AvroValue → AvroValue
  | .union branch => branch
  | value => value

/-- A string up to its first zero character, as a C string is read. -/
def cString (text : String) : String :=
  String.ofList (text.toList.takeWhile (· ≠ '\x00'))

def missingField (debugName fieldName : String) : String :=
  "iceberg " ++ debugName ++ ": missing required field '" ++ fieldName ++ "'"

def mistypedField (debugName fieldName kind : String) : String :=
  "iceberg " ++ debugName ++ ": field '" ++ fieldName ++ "' is not " ++ kind

/-- The field of a record, read by its live branch. -/
def getRequired {α : Type} (kind : String) (read : AvroValue → Option α) (record : AvroValue)
    (fieldName debugName : String) : Except String α :=
  match getByName record fieldName with
  | none => .error (missingField debugName fieldName)
  | some field =>
    match read (liveBranch field) with
    | none => .error (mistypedField debugName fieldName kind)
    | some value => .ok value

/-- A null counter is zero. -/
def getRequiredInt (record : AvroValue) (fieldName debugName : String) : Except String Int32 :=
  getRequired "an int" (fun | .null => some 0 | .int value => some value | _ => none) record fieldName
    debugName

def getRequiredLong (record : AvroValue) (fieldName debugName : String) : Except String Int64 :=
  getRequired "a long" (fun | .null => some 0 | .long value => some value | _ => none) record fieldName
    debugName

def getRequiredString (record : AvroValue) (fieldName debugName : String) : Except String String :=
  getRequired "a string" (fun | .string value => some (cString value) | _ => none) record fieldName
    debugName

/-- A field that older schemas do not have. -/
def getOptionalInt (record : AvroValue) (fieldName : String) (defaultValue : Int32) : Int32 :=
  match (getByName record fieldName).map liveBranch with
  | some (.int value) => value
  | _ => defaultValue

/-! ## Partition values -/

inductive PartitionFieldValue
  | monostate
  | int64 (value : Int64)
  | string (value : String)
  deriving DecidableEq

def decodePartitionField (field : AvroValue) : PartitionFieldValue :=
  match liveBranch field with
  | .int value => .int64 value.toInt64
  | .long value => .int64 value
  | .string value => .string (cString value)
  | _ => .monostate

def decodePartitionStruct (dataFile : AvroValue) (debugName : String) :
    Except String (List PartitionFieldValue) :=
  match getByName dataFile "partition" with
  | none => .error ("iceberg " ++ debugName ++ ": data_file is missing 'partition'")
  | some (.record fields) => .ok (fields.map (fun field => decodePartitionField field.2))
  | some _ => .error ("iceberg " ++ debugName ++ ": couldn't size 'partition' struct")

/-! ## Entries -/

structure ManifestListEntry where
  manifestPath : String
  manifestLength : Int64
  partitionSpecId : Int32
  content : Int32
  addedSnapshotId : Int64
  deriving DecidableEq

structure ManifestDataFileEntry where
  status : Int32
  filePath : String
  fileFormat : String
  recordCount : Int64
  fileSizeInBytes : Int64
  partitionValues : List PartitionFieldValue
  content : Int32
  deriving DecidableEq

def manifestListEntry (value : AvroValue) : Except String ManifestListEntry := do
  let debugName := "manifest-list"
  return { manifestPath := ← getRequiredString value "manifest_path" debugName
           manifestLength := ← getRequiredLong value "manifest_length" debugName
           partitionSpecId := ← getRequiredInt value "partition_spec_id" debugName
           content := ← getRequiredInt value "content" debugName
           addedSnapshotId := ← getRequiredLong value "added_snapshot_id" debugName }

def manifestDataFileEntry (value : AvroValue) : Except String ManifestDataFileEntry := do
  let debugName := "manifest"
  let status ← getRequiredInt value "status" debugName
  match getByName value "data_file" with
  | none => .error "iceberg manifest: entry is missing 'data_file'"
  | some dataFile =>
    return { status
             filePath := ← getRequiredString dataFile "file_path" debugName
             fileFormat := ← getRequiredString dataFile "file_format" debugName
             recordCount := ← getRequiredLong dataFile "record_count" debugName
             fileSizeInBytes := ← getRequiredLong dataFile "file_size_in_bytes" debugName
             partitionValues := ← decodePartitionStruct dataFile debugName
             content := getOptionalInt dataFile "content" 0 }

/-! ## Files -/

/-- The entries of a container file: the loop ends with the first read that gives no record. -/
def readEntries {α : Type} (entry : AvroValue → Except String α) : AvroStream → Except String (List α)
  | .endOfFile => return []
  | .decodeError => return []
  | .record value rest => do
    let first ← entry value
    return first :: (← readEntries entry rest)

def readManifestListBytes (store : AvroStore) (avroBytes : List UInt8) :
    Except String (List ManifestListEntry) := do
  readEntries manifestListEntry (← store.openAvroReader avroBytes)

def readManifestBytes (store : AvroStore) (avroBytes : List UInt8) :
    Except String (List ManifestDataFileEntry) := do
  readEntries manifestDataFileEntry (← store.openAvroReader avroBytes)

def readManifestList (store : AvroStore) (path : String) : Except String (List ManifestListEntry) := do
  readManifestListBytes store (← store.readAllBytes path)

def readManifest (store : AvroStore) (path : String) : Except String (List ManifestDataFileEntry) := do
  readManifestBytes store (← store.readAllBytes path)

end KernelLake.IcebergManifests
