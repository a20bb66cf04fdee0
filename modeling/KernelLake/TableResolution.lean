import KernelLake.Expressions
import KernelLake.PartitionValues

/-!
Resolution of Parquet files into a table.

The directories right above a file can be named after a key and a value. Then all files have to have the same
keys in the same order, and every key becomes a column behind those of the files, whose type is the narrowest
that the values of all files have.
-/

namespace KernelLake.TableResolution

open KernelLake.Types KernelLake.Expressions KernelLake.PartitionValues

/-! ## Paths -/

/-- The names in a path, and the one that is being read. -/
def splitStep (state : List (List Char) × List Char) (character : Char) : List (List Char) × List Char :=
  if character = '/' then (if state.2 = [] then state.1 else state.1 ++ [state.2], [])
  else (state.1, state.2 ++ [character])

def splitPathSegments (path : List Char) : List (List Char) :=
  let state := path.foldl splitStep ([], [])
  if state.2 = [] then state.1 else state.1 ++ [state.2]

def isKeyCharacter (character : Char) : Bool :=
  character.isAlphanum || character = '_'

abbrev KeyValue := List Char × List Char

def parseKeyValueSegment (segment : List Char) : Option KeyValue :=
  let key := segment.takeWhile (· ≠ '=')
  if key.length = segment.length ∨ key = [] then none
  else if (key.headD '0').isDigit then none
  else if key.all isKeyCharacter then some (key, segment.drop (key.length + 1))
  else none

/-- The keys and values of names from the first on, up to a name that is neither. -/
def parsedRun : List (List Char) → List KeyValue
  | [] => []
  | segment :: rest =>
    match parseKeyValueSegment segment with
    | some parsed => parsed :: parsedRun rest
    | none => []

/-- The names are gone through from the file backwards. -/
def extractPartitionSegments (path : String) : List KeyValue :=
  (parsedRun (splitPathSegments path.toList).dropLast.reverse).reverse

/-! ## Types and values -/

inductive ResolutionError
  | storage (message : String)
  | sql (message : String)
  | conversion (error : ConversionError)

def looksLikeInt64 (value : List Char) : Bool :=
  let digits := if value.head? = some '-' then value.tail else value
  !digits.isEmpty && digits.all Char.isDigit

def looksLikeIsoDate (value : List Char) : Bool :=
  value.length = 10 && value.zipIdx.all (fun entry =>
    if entry.2 = 4 ∨ entry.2 = 7 then entry.1 = '-' else entry.1.isDigit)

def inferPartitionType (values : List (List Char)) : DataType :=
  if values.all looksLikeInt64 then int64Type false
  else if values.all looksLikeIsoDate then
    if values.all (fun value => (parseIsoDate value).isOk) then date32Type false else stringType false
  else stringType false

def parsePartitionValue (value : List Char) (type : DataType) : Except ResolutionError LiteralStorage :=
  match type.id with
  | .int64 =>
    match stoll value with
    | .ok number => .ok (.int64 number)
    | .error .outOfRange =>
      .error (.storage s!"partition value '{String.ofList value}' does not fit in a 64-bit integer")
    | .error error => .error (.conversion error)
  | .date32 =>
    match parseIsoDate value with
    | .ok days => .ok (.int64 days.toInt64)
    | .error message => .error (.sql message)
  | _ => .ok (.string (String.ofList value))

/-! ## Resolution -/

/-- What is known of a file after its footer has been read. -/
structure InspectedFile where
  path : String
  schema : Schema

structure ResolvedFile where
  metadata : InspectedFile
  partitionValues : List LiteralStorage

structure ResolvedTable where
  files : List ResolvedFile
  schema : Schema
  partitionColumns : List PartitionColumn

/-- The message about two schemas that differ. -/
def mismatchMessage (reference candidate : InspectedFile) : String :=
  match (reference.schema.zip candidate.schema).zipIdx.find? (fun entry => entry.1.1 ≠ entry.1.2) with
  | some entry =>
    s!"schema mismatch between '{reference.path}' and '{candidate.path}': field {entry.2} is " ++
      s!"{entry.1.1.name} {entry.1.1.type.toString} vs {entry.1.2.name} {entry.1.2.type.toString}"
  | none =>
    s!"schema mismatch between '{reference.path}' and '{candidate.path}': different column counts " ++
      s!"({reference.schema.length} vs {candidate.schema.length})"

def validateSchemaCompatibility (reference : InspectedFile) (files : List InspectedFile) :
    Except ResolutionError Unit :=
  match files.find? (fun candidate => candidate.schema ≠ reference.schema) with
  | some candidate => .error (.storage (mismatchMessage reference candidate))
  | none => .ok ()

/-- The message about a file whose directories have not the keys of the first one. -/
def layoutMessage (first : InspectedFile) (keys : List (List Char)) (file : InspectedFile) : Option String :=
  let segments := extractPartitionSegments file.path
  if segments.length ≠ keys.length then
    some (s!"inconsistent Hive-style partition layout: '{file.path}' has {segments.length} " ++
      s!"partition directory level(s), expected {keys.length} (from '{first.path}')")
  else
    ((segments.zip keys).zipIdx.find? (fun entry => entry.1.1.1 ≠ entry.1.2)).map (fun entry =>
      s!"inconsistent Hive-style partition layout: '{file.path}' has partition key " ++
        s!"'{String.ofList entry.1.1.1}' at level {entry.2}, expected '{String.ofList entry.1.2}' " ++
        s!"(from '{first.path}')")

def partitionColumn (schema : Schema) (perFileSegments : List (List KeyValue)) (entry : List Char × Nat) :
    Except ResolutionError PartitionColumn :=
  let key := String.ofList entry.1
  if (schema.findField key).isSome then
    .error (.storage (s!"Hive partition column '{key}' collides with an existing column of the same name in " ++
      "the Parquet file itself"))
  else .ok ⟨key, inferPartitionType (perFileSegments.map (fun segments => (segments.getD entry.2 ([], [])).2))⟩

def resolveFile (columns : List PartitionColumn) (file : InspectedFile) : Except ResolutionError ResolvedFile := do
  let segments := extractPartitionSegments file.path
  let values ← columns.zipIdx.mapM (fun entry =>
    parsePartitionValue (segments.getD entry.2 ([], [])).2 entry.1.type)
  return ⟨file, values⟩

/-- Discovery does not return without a file, so there is a first one. -/
def resolveTable (first : InspectedFile) (rest : List InspectedFile) : Except ResolutionError ResolvedTable := do
  let files := first :: rest
  validateSchemaCompatibility first rest
  let perFileSegments := files.map (fun file => extractPartitionSegments file.path)
  let keys := (extractPartitionSegments first.path).map Prod.fst
  match files.findSome? (layoutMessage first keys) with
  | some message => throw (.storage message)
  | none =>
    let columns ← keys.zipIdx.mapM (partitionColumn first.schema perFileSegments)
    let resolved ← files.mapM (resolveFile columns)
    return ⟨resolved, first.schema ++ columns.map (fun column => ⟨column.name, column.type⟩), columns⟩

end KernelLake.TableResolution
