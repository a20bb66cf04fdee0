import KernelLake.GlobMatching
import KernelLake.Library.FileTrees
import Mathlib.Data.List.DropRight
import Mathlib.Data.List.Sort

/-!
Discovery of the Parquet files that the sources of a table name.

A store answers calls. What a file system holds does not change here, but any call, and any question that a
call asks of the file system, may fail, each time anew. A source without wildcards is listed with its whole
tree; when that fails it is listed once more as if it were a single file.
-/

namespace KernelLake.FileDiscovery

open KernelLake.GlobMatching KernelLake.Library.FileTrees

/-! ## Stores -/

structure ObjectInfo where
  uri : String
  sizeBytes : UInt64
deriving DecidableEq

/-- A `StorageError`, or an exception of another type. -/
inductive Failure
  | storage (message : String)
  | filesystem (message : String)
deriving DecidableEq

abbrev Listing := Except Failure (List ObjectInfo)

/-- What a store answers when it is asked for the source with a number. -/
structure ObjectStore where
  list : Nat → String → Listing
  listRecursive : Nat → String → Listing

/-! ## Discovery -/

def hasParquetExtension (path : String) : Bool :=
  ".parquet".toList.isSuffixOf path.toList

def bytes (text : String) : List UInt8 :=
  text.toUTF8.data.toList

def hasGlobChars (path : String) : Bool :=
  path.toList.contains '*' || path.toList.contains '?'

def sortedByUri (files : List ObjectInfo) : List ObjectInfo :=
  files.insertionSort (fun left right => left.uri ≤ right.uri)

/-- Of files that follow each other with one URI the first stays. -/
def unique : List ObjectInfo → List ObjectInfo
  | [] => []
  | first :: rest =>
    match unique rest with
    | [] => [first]
    | next :: others => if first.uri = next.uri then first :: others else first :: next :: others

def sortedDeduped (files : List ObjectInfo) : List ObjectInfo :=
  unique (sortedByUri files)

def checkAllParquet (files : List ObjectInfo) : Listing :=
  match files.find? (fun info => !hasParquetExtension info.uri) with
  | some info => .error (.storage s!"not a Parquet file (unsupported format): '{info.uri}'")
  | none => .ok files

def discoverSource (store : ObjectStore) (call : Nat) (source : String) : Listing :=
  if hasGlobChars source then store.list call source >>= checkAllParquet
  else
    match store.listRecursive call source with
    | .ok listed => checkAllParquet listed
    -- Every failure of the store is taken for a source that is not a directory.
    | .error (.storage _) => store.list call source >>= checkAllParquet
    | .error failure => .error failure

def discoverSources (store : ObjectStore) (call : Nat) : List String → Listing
  | [] => .ok []
  | source :: rest => do
    let listed ← discoverSource store call source
    let others ← discoverSources store (call + 1) rest
    return listed ++ others

def discoverParquetFilesRecursive (store : ObjectStore) (sources : List String) : Listing :=
  if sources = [] then .error (.storage "no data source given (expected FROM read_parquet('path'))")
  else (discoverSources store 0 sources).map sortedDeduped

/-! ## Going through entries -/

/-- The results for the entries that have one, or the first failure. -/
def collect {α β ε : Type} (examine : α → Except ε (Option β)) : List α → Except ε (List β)
  | [] => .ok []
  | entry :: rest => do
    let result ← examine entry
    let others ← collect examine rest
    return result.toList ++ others

/-! ## The local store -/

/-- The questions that the store asks of the file system. -/
inductive Query
  | exists
  | isDirectory
  | isRegularFile
  | fileSize
  | openDirectory
deriving DecidableEq

/-- The errors that the file system answers questions with in the course of one call. -/
abbrev Denials := Query → String → Option String

/-- The disk of a `LocalObjectStore`. A listing tells no link from the file it leads to and follows no link to a
directory; the tree has no links. -/
structure LocalDisk where
  tree : FileTree
  currentPath : Location
  isCurrent : tree.kindOf currentPath = some .directory
  localRoot : String
  /-- The names of a path after it has been made canonical, as far as that is possible. -/
  canonical : String → List String

namespace LocalDisk

variable (disk : LocalDisk) (denied : Denials)

def locate (path : String) : Option Location :=
  disk.tree.locate disk.currentPath path

def kind (path : String) : Option Kind :=
  (disk.locate path).bind disk.tree.kindOf

/-- Asks a question in a way that throws. -/
def ask (query : Query) (path : String) : Except Failure Unit :=
  match denied query path with
  | some error => .error (.filesystem error)
  | none => .ok ()

def failMissing (path : String) : Failure :=
  .storage s!"path does not exist: '{path}' (check the path and that KernelLake has read access)"

def checkWithinRoot (path original : String) : Except Failure Unit :=
  if disk.canonical disk.localRoot <+: disk.canonical path then .ok ()
  else .error (.storage s!"path '{original}' is outside the configured storage root")

/-- What follows the last slash. -/
def filename (path : String) : String :=
  ((splitLast '/' path.toList).map (fun parts => String.ofList parts.2)).getD path

/-- What precedes the last name, without the slashes between them. -/
def parentPath (path : String) : String :=
  match splitLast '/' path.toList with
  | none => ""
  | some parts =>
    let directory := parts.1.rdropWhile (· = '/')
    if directory = [] then "/" else String.ofList directory

/-- What begins with the last dot of a name, when that is not where the name begins. -/
def extension (name : String) : String :=
  match splitLast '.' name.toList with
  | some (first :: rest, after) =>
    if (first, rest, after) = ('.', [], []) then "" else "." ++ String.ofList after
  | _ => ""

/-- One entry of a walk from the directory with a text. -/
def examine (recursive : Bool) (wanted : String → Bool) (directory : String) (entry : Location × Kind) :
    Except Failure (Option ObjectInfo) := do
  let path := entry.1.foldl joinPath directory
  ask denied .isRegularFile path
  match entry.2 with
  | .file size =>
    if wanted (entry.1.getLastD "") then
      ask denied .fileSize path
      return some ⟨path, size⟩
    else return none
  | .directory =>
    if recursive then ask denied .openDirectory path
    return none
  | .other => return none

def walk (recursive : Bool) (wanted : String → Bool) (directory : String) : Listing := do
  ask denied .openDirectory directory
  let location := (disk.locate directory).getD []
  collect (examine denied recursive wanted directory)
    (if recursive then disk.tree.below location else disk.tree.children location)

/-- Failures of a walk become failures of the store. -/
def converted (message : String) : Listing → Listing
  | .error (.filesystem what) => .error (.storage (message ++ what))
  | result => result

def listDirectoryMatching (directory pattern : String) : Listing :=
  (converted s!"failed to list directory '{directory}': "
    (disk.walk denied false (fun name => globMatch (bytes pattern) (bytes name)) directory)).map
    sortedByUri

def notEmpty (message : String) (results : List ObjectInfo) : Listing :=
  if results = [] then .error (.storage message) else .ok results

/-- Asks whether a path exists without throwing. -/
def existsQuietly (path : String) : Bool :=
  (disk.kind path).isSome && (denied .exists path).isNone

def isDirectoryQuietly (path : String) : Bool :=
  disk.kind path = some .directory && (denied .isDirectory path).isNone

def fileSize (path : String) : Except Failure UInt64 := do
  ask denied .fileSize path
  match disk.kind path with
  | some (.file size) => return size
  | _ => throw (.filesystem s!"cannot get file size: '{path}'")

def listGlob (path : String) : Listing := do
  let directory := if parentPath path = "" then "." else parentPath path
  disk.checkWithinRoot directory path
  ask denied .exists directory
  if (disk.kind directory).isNone then throw (failMissing path)
  else do
    ask denied .isDirectory directory
    if disk.kind directory ≠ some .directory then throw (failMissing path)
    else
      disk.listDirectoryMatching denied directory (filename path) >>=
        notEmpty s!"no files matched pattern '{path}'"

def list (path : String) : Listing :=
  if hasGlobChars (filename path) then disk.listGlob denied path
  else do
    disk.checkWithinRoot path path
    if disk.existsQuietly denied path then
      if disk.isDirectoryQuietly denied path then
        disk.listDirectoryMatching denied path "*.parquet" >>=
          notEmpty s!"directory contains no Parquet files: '{path}'"
      else do
        let size ← disk.fileSize denied path
        return [⟨FileTree.absolute disk.currentPath path, size⟩]
    else throw (failMissing path)

def listRecursive (path : String) : Listing := do
  disk.checkWithinRoot path path
  if disk.existsQuietly denied path then
    if disk.isDirectoryQuietly denied path then
      let results ← converted s!"failed to recursively list directory '{path}': "
        (disk.walk denied true (fun name => extension name = ".parquet") path)
      (notEmpty s!"directory tree contains no Parquet files: '{path}'" results).map sortedByUri
    else throw (.storage s!"expected a directory for recursive listing, got a file: '{path}'")
  else throw (failMissing path)

end LocalDisk

/-- The store over a disk, with the errors met in each call for each source. -/
def localStore (disk : LocalDisk) (whenRecursive whenFlat : Nat → Denials) : ObjectStore where
  list call source := disk.list (whenFlat call) source
  listRecursive call source := disk.listRecursive (whenRecursive call) source

/-! ## Remote stores -/

/-- The text before and after the first `://`. -/
def splitScheme : List Char → Option (List Char × List Char)
  | ':' :: '/' :: '/' :: rest => some ([], rest)
  | first :: rest => (splitScheme rest).map (fun parts => (first :: parts.1, parts.2))
  | [] => none

def scheme (uri : String) : String :=
  ((splitScheme uri.toList).map (fun parts => String.ofList parts.1)).getD "file"

def stripScheme (uri : String) : String :=
  if scheme uri = "file" then uri
  else ((splitScheme uri.toList).map (fun parts => String.ofList parts.2)).getD uri

inductive FileType
  | notFound
  | file
  | directory
  | unknown
deriving DecidableEq

structure FileInfo where
  path : String
  type : FileType
  size : Int

/-- What the client of a remote store finds when no call fails. -/
structure RemoteTree where
  label : String
  fileInfo : String → FileInfo
  children : String → List FileInfo
  descendants : String → List FileInfo

/-- The errors of the client in the course of one call. -/
structure Refusals where
  fileInfo : String → Option String
  select : String → Option String

namespace RemoteTree

variable (remote : RemoteTree) (refused : Refusals)

/-- The directory and the last name of a path. -/
def splitLastComponent (path : String) : String × String :=
  match splitLast '/' path.toList with
  | none => ("", path)
  | some parts => (String.ofList parts.1, String.ofList parts.2)

/-- What follows the last dot of the last name of a path. -/
def fileExtension (path : String) : String :=
  ((splitLast '.' (splitLastComponent path).2.toList).map (fun parts => String.ofList parts.2)).getD ""

def describeFailure (action uri error : String) : Failure :=
  .storage s!"{remote.label}: failed to {action} '{uri}': {error}"

def inspect (uri path : String) : Except Failure FileInfo :=
  match refused.fileInfo path with
  | some error => .error (remote.describeFailure "inspect" uri error)
  | none => .ok (remote.fileInfo path)

def select (uri path : String) (entries : List FileInfo) : Except Failure (List FileInfo) :=
  match refused.select path with
  | some error => .error (remote.describeFailure "list" uri error)
  | none => .ok entries

/-- The files among entries that are wanted, or the failure to find any. -/
def results (uri message : String) (wanted : String → Bool) (entries : List FileInfo) : Listing :=
  let found := (entries.filter (fun entry => entry.type = .file ∧ wanted entry.path)).map
    (fun entry => (⟨scheme uri ++ "://" ++ entry.path, UInt64.ofInt entry.size⟩ : ObjectInfo))
  if found = [] then .error (.storage s!"{remote.label}: {message} '{uri}'") else .ok (sortedByUri found)

/-- `generic_fs_list` -/
def list (uri : String) : Listing :=
  let path := stripScheme uri
  let (directory, lastComponent) := splitLastComponent path
  if hasGlobChars lastComponent then do
    let entries ← remote.select refused uri directory (remote.children directory)
    remote.results uri "no files matched pattern" (fun entryPath =>
      globMatch (bytes lastComponent) (bytes (splitLastComponent entryPath).2)) entries
  else do
    let info ← remote.inspect refused uri path
    if info.type = .notFound then throw (.storage s!"{remote.label}: path does not exist: '{uri}'")
    else if info.type = .directory then
      let entries ← remote.select refused uri path (remote.children path)
      remote.results uri "directory contains no Parquet files:"
        (fun entryPath => fileExtension entryPath = "parquet") entries
    else return [⟨uri, UInt64.ofInt info.size⟩]

/-- `generic_fs_list_recursive` -/
def listRecursive (uri : String) : Listing := do
  let path := stripScheme uri
  let info ← remote.inspect refused uri path
  if info.type = .notFound then throw (.storage s!"{remote.label}: path does not exist: '{uri}'")
  else if info.type = .directory then
    let entries ← remote.select refused uri path (remote.descendants path)
    remote.results uri "directory tree contains no Parquet files:"
      (fun entryPath => fileExtension entryPath = "parquet") entries
  else throw (.storage s!"{remote.label}: expected a directory for recursive listing, got a file: '{uri}'")

end RemoteTree

/-- The store over a remote tree, with the errors met in each call for each source. -/
def genericStore (remote : RemoteTree) (whenRecursive whenFlat : Nat → Refusals) : ObjectStore where
  list call uri := remote.list (whenFlat call) uri
  listRecursive call uri := remote.listRecursive (whenRecursive call) uri

end KernelLake.FileDiscovery
