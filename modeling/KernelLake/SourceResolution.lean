import KernelLake.SourceCalls

/-!
The names of a parsed statement, and the source calls they stand for.

Conversion of a statement takes every FROM and JOIN name back to a source and marks the source as
consumed. The marks are kept over the whole query, with the statements inside expressions and derived
tables, and in the end none may be missing.
-/

namespace KernelLake.SourceResolution

open KernelLake.Library.Replacement KernelLake.SourceCalls

/-! ## Statements of the SQL parser -/

inductive HsqlJoinType
  | inner | full | left | right | cross | natural
  deriving DecidableEq

mutual

/-- A table of a FROM clause; `missing` is a null pointer, and `other` is every form that conversion
knows nothing of. -/
inductive TableRef (Source : Type)
  | missing
  | tableName (name : Source) (tableAlias : Option String)
  | join (type : HsqlJoinType) (left right : TableRef Source) (condition : HsqlExpr Source)
  | select (statement : SelectStatement Source) (tableAlias : Option String)
  | other

/-- What conversion does with an expression: the statements it converts, and how it ends. The operand of
a `CASE` is converted once for each branch, and a statement in it occurs as often. -/
inductive HsqlExpr (Source : Type)
  | missing
  | converted
  | rejected (message : String)
  | subquery (statement : SelectStatement Source) (rest : HsqlExpr Source)

/-- A statement. `clauses` are its expressions behind the select list, and a limit that cannot be
converted is kept as its message. -/
inductive SelectStatement (Source : Type)
  | select (selectDistinct setOperations withDescriptions : Bool) (fromTable : TableRef Source)
      (selectList clauses : HsqlExpr Source) (rejectedLimit : Option String)

end

def TableRef.isMissing {Source : Type} : TableRef Source → Bool
  | .missing => true
  | _ => false

def HsqlExpr.isMissing {Source : Type} : HsqlExpr Source → Bool
  | .missing => true
  | _ => false

mutual

/-- The sources of a table, in the order they are converted. -/
def TableRef.sources {Source : Type} : TableRef Source → List Source
  | .missing => []
  | .tableName name _ => [name]
  | .join _ left right condition => left.sources ++ right.sources ++ condition.sources
  | .select statement _ => statement.sources
  | .other => []

def HsqlExpr.sources {Source : Type} : HsqlExpr Source → List Source
  | .subquery statement rest => statement.sources ++ rest.sources
  | _ => []

def SelectStatement.sources {Source : Type} : SelectStatement Source → List Source
  | .select _ _ _ fromTable selectList clauses _ =>
    fromTable.sources ++ selectList.sources ++ clauses.sources

end

mutual

/-- The same table with other sources. -/
def TableRef.mapSource {Source Target : Type} (image : Source → Target) : TableRef Source → TableRef Target
  | .missing => .missing
  | .tableName name tableAlias => .tableName (image name) tableAlias
  | .join type left right condition =>
    .join type (left.mapSource image) (right.mapSource image) (condition.mapSource image)
  | .select statement tableAlias => .select (statement.mapSource image) tableAlias
  | .other => .other

def HsqlExpr.mapSource {Source Target : Type} (image : Source → Target) : HsqlExpr Source → HsqlExpr Target
  | .missing => .missing
  | .converted => .converted
  | .rejected message => .rejected message
  | .subquery statement rest => .subquery (statement.mapSource image) (rest.mapSource image)

def SelectStatement.mapSource {Source Target : Type} (image : Source → Target) :
    SelectStatement Source → SelectStatement Target
  | .select selectDistinct setOperations withDescriptions fromTable selectList clauses rejectedLimit =>
    .select selectDistinct setOperations withDescriptions (fromTable.mapSource image)
      (selectList.mapSource image) (clauses.mapSource image) rejectedLimit

end

/-! ## Conversion -/

/-- The paths of a source. -/
abbrev Paths := List (List Char)

def unsupported {α : Type} (what : String) : Except String α :=
  .error ("unsupported SQL construct: " ++ what)

def consumedTwiceMessage : String :=
  "internal error: a read_parquet(...)/read_iceberg(...)/read_delta(...) source was referenced by " ++
    "more than one FROM/JOIN clause"

def unknownSourceMessage : String :=
  "FROM/JOIN source does not reference a read_parquet(...)/read_iceberg(...)/read_delta(...) call"

def unreferencedMessage : String :=
  "a read_parquet(...)/read_iceberg(...)/read_delta(...) source appears in the query but is not " ++
    "referenced by any recognized FROM/JOIN clause"

def joinSidesMessage : String :=
  "JOIN sides must each be a single read_parquet(...)/read_iceberg(...)/read_delta(...) source, not a " ++
    "subquery or nested join"

def unaliasedSidesMessage : String :=
  "both sides of a JOIN must be aliased, e.g. read_parquet('a.parquet') AS a"

def unaliasedDerivedMessage : String :=
  "a derived table (subquery in FROM) must be aliased, e.g. FROM (SELECT ...) AS a"

def fromMessage : String :=
  "joins and subqueries (only a single FROM read_parquet(...)/read_iceberg(...)/read_delta(...) " ++
    "source, a two-table JOIN, or a single derived table `FROM (SELECT ...) AS alias`, is supported)"

/-- The source of a placeholder, and the marks with its own set. -/
def findAndConsumeSource (placeholder : String) :
    List PlaceholderSource → List Bool → Except String (PlaceholderSource × List Bool)
  | source :: sources, used :: consumed =>
    if source.placeholder ≠ placeholder then do
      let found ← findAndConsumeSource placeholder sources consumed
      return (found.1, used :: found.2)
    else if used then unsupported consumedTwiceMessage
    else .ok (source, true :: consumed)
  | _, _ => unsupported unknownSourceMessage

def convertJoinType : HsqlJoinType → Except String Unit
  | .inner => .ok ()
  | .left => .ok ()
  | _ => unsupported "JOIN types other than INNER JOIN and LEFT [OUTER] JOIN"

/-- A side of a JOIN that is a table. -/
def convertJoinSource (sources : List PlaceholderSource) (consumed : List Bool) :
    TableRef String → Except String (TableRef Paths × List Bool)
  | .tableName name tableAlias =>
    if tableAlias.isNone then unsupported unaliasedSidesMessage
    else do
      let found ← findAndConsumeSource name sources consumed
      return (.tableName found.1.paths tableAlias, found.2)
  | _ => unsupported joinSidesMessage

mutual

/-- The table of a FROM clause, or the left side of a JOIN, whose chain `flatten_join_chain` unfolds. Only that side may
be a JOIN again. -/
def convertTableRef (sources : List PlaceholderSource) (joinSide : Bool) :
    TableRef String → List Bool → Except String (TableRef Paths × List Bool)
  | .join type left right condition, consumed =>
    if left.isMissing || right.isMissing then unsupported "malformed JOIN"
    else do
      convertJoinType type
      if condition.isMissing then unsupported "JOIN with no ON condition"
      else do
        let first ← convertTableRef sources true left consumed
        let second ← convertJoinSource sources first.2 right
        let on ← convertExpr sources condition second.2
        return (.join type first.1 second.1 on.1, on.2)
  | .tableName name tableAlias, consumed =>
    if joinSide then convertJoinSource sources consumed (.tableName name tableAlias)
    else do
      let found ← findAndConsumeSource name sources consumed
      return (.tableName found.1.paths tableAlias, found.2)
  | .select statement tableAlias, consumed =>
    if joinSide then unsupported joinSidesMessage
    else if tableAlias.isNone then unsupported unaliasedDerivedMessage
    else do
      let converted ← convertSelectStatement sources statement consumed
      return (.select converted.1 tableAlias, converted.2)
  | .missing, _ => unsupported (if joinSide then joinSidesMessage else fromMessage)
  | .other, _ => unsupported (if joinSide then joinSidesMessage else fromMessage)

def convertExpr (sources : List PlaceholderSource) :
    HsqlExpr String → List Bool → Except String (HsqlExpr Paths × List Bool)
  | .missing, _ => unsupported "null expression"
  | .converted, consumed => .ok (.converted, consumed)
  | .rejected message, _ => .error message
  | .subquery statement rest, consumed => do
    let converted ← convertSelectStatement sources statement consumed
    let others ← convertExpr sources rest converted.2
    return (.subquery converted.1 others.1, others.2)

def convertSelectStatement (sources : List PlaceholderSource) :
    SelectStatement String → List Bool → Except String (SelectStatement Paths × List Bool)
  | .select selectDistinct setOperations withDescriptions fromTable selectList clauses rejectedLimit, consumed =>
    if selectDistinct then unsupported "SELECT DISTINCT"
    else if setOperations then unsupported "UNION/INTERSECT/EXCEPT"
    else if withDescriptions then unsupported "WITH (common table expressions)"
    else do
      let table ← convertTableRef sources false fromTable consumed
      if selectList.isMissing then .error "SELECT list must not be empty"
      else do
        let items ← convertExpr sources selectList table.2
        let others ← convertExpr sources clauses items.2
        match rejectedLimit with
        | some message => .error message
        | none => return (.select selectDistinct setOperations withDescriptions table.1 items.1 others.1 none, others.2)

end

/-! ## Parsing -/

inductive HsqlStatement
  | select (statement : SelectStatement String)
  | other

structure HsqlError where
  message : String
  line : Nat
  column : Nat

/-- The SQL parser: a list of statements for a text, or an error. -/
abbrev HsqlParser := List Char → Except HsqlError (List HsqlStatement)

def HsqlError.text (error : HsqlError) : String :=
  "SQL parse error: " ++ error.message ++ " (line " ++ toString error.line ++ ", column " ++
    toString error.column ++ ")"

def statementCountMessage (count : Nat) : String :=
  "KernelLake supports exactly one SQL statement per query, got " ++ toString count

/-- The one statement of a rewritten text. -/
def theStatement (parsed : Except HsqlError (List HsqlStatement)) : Except String (SelectStatement String) :=
  match parsed with
  | .error error => .error error.text
  | .ok [.select statement] => .ok statement
  | .ok [.other] => unsupported "only SELECT statements are supported"
  | .ok statements => .error (statementCountMessage statements.length)

def parseSql (hsql : HsqlParser) (sql : List Char) : Except String (SelectStatement Paths) := do
  checkSqlWithinLimits sql
  let preprocessed ← preprocessFromReadParquet sql
  let statement ← theStatement (hsql preprocessed.sql)
  let converted ← convertSelectStatement preprocessed.sources statement
    (List.replicate preprocessed.sources.length false)
  if converted.2.all id then return converted.1 else unsupported unreferencedMessage

/-- The paths that a placeholder stands for. -/
def pathsOf (sources : List PlaceholderSource) (placeholder : String) : Paths :=
  ((sources.find? (fun source => source.placeholder == placeholder)).map PlaceholderSource.paths).getD []

/-! ## Regions of a text -/

inductive Region
  | plain | literal | quotedIdentifier | comment
  deriving DecidableEq

/-- Where the next character of a text stands, after the characters before it: in a literal, in a
quoted identifier, in a comment up to the end of the line, or in none of them. -/
def regionAfter : Region → List Char → Region
  | region, [] => region
  | .plain, character :: text =>
    if character = '\'' then regionAfter .literal text
    else if character = '"' then regionAfter .quotedIdentifier text
    else if character = '-' ∧ text.head? = some '-' then regionAfter .comment text
    else regionAfter .plain text
  | .literal, character :: text => regionAfter (if character = '\'' then .plain else .literal) text
  | .quotedIdentifier, character :: text =>
    regionAfter (if character = '"' then .plain else .quotedIdentifier) text
  | .comment, character :: text => regionAfter (if character = '\n' then .plain else .comment) text

/-- No call is replaced inside a literal, a quoted identifier or a comment. -/
def ReplacesOutsideQuotes (sql : List Char) : Prop :=
  ∀ before call written after, Cut Writes sql (before ++ .phrase call written :: after) →
    regionAfter .plain (textOf before) = .plain

end KernelLake.SourceResolution
