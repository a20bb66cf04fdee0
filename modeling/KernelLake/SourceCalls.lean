import KernelLake.Library.Replacement
import KernelLake.Library.Results

/-!
Source calls in the text of a query.

The SQL grammar knows no table functions, so before parsing every call like `read_parquet('...')` is
replaced by a placeholder name, and the parsed statement's FROM and JOIN names are taken back to the
calls. A text is its characters, one for each byte, and a position in it is what follows there.

The SQL parser itself is a parameter, from texts to statements. A statement keeps its FROM and JOIN
names and the statements within its expressions; it is generic in what stands for a source, a name
before the conversion and the paths of a call after it. Of an expression only what its conversion does
is kept: the subqueries it converts, in order, and whether it is rejected.
-/

namespace KernelLake.SourceCalls

open KernelLake.Library.Replacement

/-! ## Limits on the text -/

def kMaxSqlBytes : Nat := 1048576
def kMaxParenDepth : Nat := 500
def kMaxJoinKeywords : Nat := 64
def kMaxJoinSources : Nat := 12

def startsWithCi : List Char → List Char → Bool
  | _, [] => true
  | [], _ :: _ => false
  | character :: text, lower :: rest => character.toLower == lower && startsWithCi text rest

/-- The depth of the open parentheses and the greatest depth so far, after a text. -/
def parenDepths : Nat × Nat → List Char → Nat × Nat
  | depths, [] => depths
  | (depth, maxDepth), character :: text =>
    if character = '(' then parenDepths (depth + 1, max maxDepth (depth + 1)) text
    else if character = ')' && 0 < depth then parenDepths (depth - 1, maxDepth) text
    else parenDepths (depth, maxDepth) text

def joinCount (text : List Char) : Nat :=
  text.tails.countP (startsWithCi · "join".toList)

def checkSqlWithinLimits (sql : List Char) : Except String Unit :=
  let maxDepth := (parenDepths (0, 0) sql).2
  if sql.length > kMaxSqlBytes then
    .error ("SQL text is too long (" ++ toString sql.length ++ " bytes, max " ++ toString kMaxSqlBytes ++ ")")
  else if maxDepth > kMaxParenDepth then
    .error ("SQL expression nesting is too deep (" ++ toString maxDepth ++ " levels, max " ++
      toString kMaxParenDepth ++ ")")
  else if joinCount sql > kMaxJoinKeywords then
    .error ("SQL JOIN chain is too long (" ++ toString (joinCount sql) ++ " JOIN keywords, max " ++
      toString kMaxJoinKeywords ++ ")")
  else .ok ()

/-! ## The scanner -/

def isSpace (character : Char) : Bool :=
  character == ' ' || (9 ≤ character.toNat && character.toNat ≤ 13)

def skipWhitespace (text : List Char) : List Char :=
  text.dropWhile isSpace

/-- The content of a literal after its opening quote, as written, and what follows the closing one.
A backslash keeps the next character from closing the literal. -/
def quotedContent : List Char → Option (List Char × List Char)
  | [] => none
  | '\'' :: text => some ([], text)
  | ['\\'] => none
  | '\\' :: escaped :: text =>
    (quotedContent text).map (fun parsed => ('\\' :: escaped :: parsed.1, parsed.2))
  | character :: text => (quotedContent text).map (fun parsed => (character :: parsed.1, parsed.2))

def tryParseQuotedString : List Char → Option (List Char × List Char)
  | [] => none
  | character :: text => if character = '\'' then quotedContent text else none

/-- The literals of an argument list and what follows the last one, whitespace skipped. Every round
reads one literal, so the length of the text is fuel enough. -/
def parsePaths : Nat → List Char → Option (List (List Char) × List Char)
  | 0, _ => none
  | fuel + 1, text =>
    match tryParseQuotedString text with
    | none => none
    | some (path, rest) =>
      match skipWhitespace rest with
      | [] => some ([path], [])
      | next :: rest =>
        if next = ',' then
          (parsePaths fuel (skipWhitespace rest)).map (fun parsed => (path :: parsed.1, parsed.2))
        else some ([path], next :: rest)

/-- The arguments of a call, from behind its name. -/
def tryParseReadParquetArgs (text : List Char) : Option (List (List Char) × List Char) :=
  match skipWhitespace text with
  | [] => none
  | opening :: text =>
    if opening = '(' then
      match parsePaths text.length (skipWhitespace text) with
      | none => none
      | some (_, []) => none
      | some (paths, closing :: rest) => if closing = ')' then some (paths, rest) else none
    else none

inductive SourceFunction
  | parquet | iceberg | delta | unityCatalog
  deriving DecidableEq

def SourceFunction.name : SourceFunction → List Char
  | .parquet => "read_parquet".toList
  | .iceberg => "read_iceberg".toList
  | .delta => "read_delta".toList
  | .unityCatalog => "read_unity_catalog".toList

/-- The name that a text starts with, tried in this order. -/
def functionAt (text : List Char) : Option SourceFunction :=
  [SourceFunction.parquet, .iceberg, .delta, .unityCatalog].find? (fun function => startsWithCi text function.name)

structure SourceCall where
  function : SourceFunction
  arguments : List (List Char)
  deriving DecidableEq

/-- The call at the front of a text. Only `read_parquet` takes more than one argument. -/
def sourceCallAt (text : List Char) : Option (SourceCall × List Char) :=
  match functionAt text with
  | none => none
  | some function =>
    match tryParseReadParquetArgs (text.drop function.name.length) with
    | none => none
    | some (arguments, rest) =>
      if function ≠ .parquet ∧ arguments.length ≠ 1 then none else some (⟨function, arguments⟩, rest)

/-- The paths of a call. A name in a catalog becomes a path with a scheme of its own. -/
def SourceCall.paths (call : SourceCall) : List (List Char) :=
  match call.function with
  | .parquet => call.arguments
  | .iceberg => ["iceberg://".toList ++ call.arguments.headD []]
  | .delta => ["delta://".toList ++ call.arguments.headD []]
  | .unityCatalog => ["unitycatalog://".toList ++ call.arguments.headD []]

structure PlaceholderSource where
  placeholder : String
  paths : List (List Char)
  deriving DecidableEq

/-- The rewritten text and the sources in order of appearance. -/
structure Preprocessed where
  sql : List Char
  sources : List PlaceholderSource
  deriving DecidableEq

def placeholderName (index : Nat) : String :=
  "kernellake_parquet_source_" ++ index.repr

def Preprocessed.addCharacter (done : Preprocessed) (character : Char) : Preprocessed :=
  { done with sql := done.sql ++ [character] }

def Preprocessed.addCall (done : Preprocessed) (call : SourceCall) : Preprocessed :=
  let placeholder := placeholderName done.sources.length
  ⟨done.sql ++ placeholder.toList, done.sources ++ [⟨placeholder, call.paths⟩]⟩

def noSourceMessage : String :=
  "KernelLake requires at least one data source of the form " ++
    "read_parquet('path' [, 'path2', ...]), read_iceberg('catalog.namespace.table'), " ++
    "read_delta('table_uri'), or read_unity_catalog('instance.catalog.schema.table'); no such clause " ++
    "was found in the query"

def tooManySourcesMessage (count : Nat) : String :=
  "KernelLake supports at most " ++ toString kMaxJoinSources ++
    " read_parquet(...)/read_iceberg(...)/read_delta(...)/read_unity_catalog(...) sources in a JOIN chain, got " ++
    toString count

def preprocessFromReadParquet (sql : List Char) : Except String Preprocessed :=
  let done := runOver sourceCallAt Preprocessed.addCharacter Preprocessed.addCall sql.length sql ⟨[], []⟩
  if done.sources.isEmpty then .error noSourceMessage
  else if done.sources.length > kMaxJoinSources then .error (tooManySourcesMessage done.sources.length)
  else .ok done

/-! ## How calls are written -/

/-- What stands between the quotes of a literal: a backslash and the character after it belong
together, and nothing else is a quote. -/
inductive Content : List Char → Prop
  | empty : Content []
  | plain {character : Char} {content : List Char} (notQuote : character ≠ '\'')
      (notBackslash : character ≠ '\\') (rest : Content content) : Content (character :: content)
  | escaped {character : Char} {content : List Char} (rest : Content content) :
      Content ('\\' :: character :: content)

def AllSpace (text : List Char) : Prop :=
  ∀ character ∈ text, isSpace character = true

/-- Literals with commas between them and a parenthesis at the end. -/
inductive Arguments : List (List Char) → List Char → Prop
  | last {path spaces : List Char} (content : Content path) (blank : AllSpace spaces) :
      Arguments [path] ('\'' :: (path ++ '\'' :: (spaces ++ [')'])))
  | more {path spaces spaces' rest : List Char} {paths : List (List Char)} (content : Content path)
      (blank : AllSpace spaces) (blank' : AllSpace spaces') (others : Arguments paths rest) :
      Arguments (path :: paths) ('\'' :: (path ++ '\'' :: (spaces ++ ',' :: (spaces' ++ rest))))

/-- The texts of a call: its name in any letter case, and its arguments in parentheses. -/
def Writes (call : SourceCall) (written : List Char) : Prop :=
  ∃ name spaces spaces' arguments, written = name ++ (spaces ++ '(' :: (spaces' ++ arguments)) ∧
    name.map Char.toLower = call.function.name ∧ AllSpace spaces ∧ AllSpace spaces' ∧
    Arguments call.arguments arguments ∧ (call.function = .parquet ∨ call.arguments.length = 1)

/-- The rewritten text of pieces: characters stay, and each call is replaced by the next placeholder. -/
def rewritten : Nat → List (Piece Char SourceCall) → List Char
  | _, [] => []
  | index, .letter character :: pieces => character :: rewritten index pieces
  | index, .phrase _ _ :: pieces => (placeholderName index).toList ++ rewritten (index + 1) pieces

/-- The sources of calls, numbered in order. -/
def sourcesOf (calls : List SourceCall) : List PlaceholderSource :=
  calls.mapIdx (fun index call => ⟨placeholderName index, call.paths⟩)

/-- What preprocessing gives for a text in pieces. -/
def replaced (pieces : List (Piece Char SourceCall)) : Except String Preprocessed :=
  let calls := phrases pieces
  if calls = [] then .error noSourceMessage
  else if calls.length > kMaxJoinSources then .error (tooManySourcesMessage calls.length)
  else .ok ⟨rewritten 0 pieces, sourcesOf calls⟩

end KernelLake.SourceCalls
