import KernelLake.PlanSemantics

/-!
Physical query plans and what they may return.

A physical scan reads only some of its table's columns, of the row groups that were selected for it, and
remembers where each column went; a hash join may have its inputs exchanged. The order in which a join or
a grouping delivers its rows is left open, for physical and for logical plans alike: `Returns` and
`Delivers` are relations, so that a limit above a join may cut off any of its rows. What the scans of a
logical plan read is a parameter of `Returns`: whole tables, or what a physical plan has selected of them.
-/

namespace KernelLake.PhysicalPlans

open KernelLake.Types KernelLake.Expressions KernelLake.Evaluation KernelLake.LogicalPlans
open KernelLake.PlanSemantics

/-- A file of a scan, with the row groups that pruning selected. -/
structure PhysicalFileFragment where
  path : String
  fileRowCount : Int
  selectedRowGroups : List Nat
  deriving DecidableEq

/-- A scan of some columns of a table, given by their positions in its schema. The partition columns among
them are not read but appended. The column map sends a position in the table's schema to one in the scan's
output. -/
structure ParquetScan where
  fragments : List PhysicalFileFragment
  sourcePaths : List String
  tableSchema : Schema
  columns : List Nat
  schema : Schema
  partitionColumns : List PartitionColumn
  originalColumnMap : List (Option Nat)
  deriving DecidableEq

inductive PhysicalPlan
  | parquetScan (scan : ParquetScan)
  | hashJoin (left right : PhysicalPlan) (leftKeyIndex rightKeyIndex : Nat)
      (originalColumnMap : List (Option Nat)) (joinType : JoinType)
      (residualPredicate : Option Expression)
  | filter (child : PhysicalPlan) (predicate : Expression)
  | projection (child : PhysicalPlan) (items : List NamedExpression)
  | hashAggregate (child : PhysicalPlan) (groupBy aggregates : List NamedExpression)
  | scalarAggregate (child : PhysicalPlan) (aggregates : List NamedExpression)
  | sort (child : PhysicalPlan) (keys : List SortKey)
  | limit (child : PhysicalPlan) (limit : Int)
  deriving DecidableEq

def PhysicalPlan.outputSchema : PhysicalPlan → Schema
  | .parquetScan scan => scan.schema
  | .hashJoin left right _ _ _ joinType _ => joinSchema left.outputSchema right.outputSchema joinType
  | .filter child _ => child.outputSchema
  | .projection _ items => namedFields items
  | .hashAggregate _ groupBy aggregates => namedFields groupBy ++ namedFields aggregates
  | .scalarAggregate _ aggregates => namedFields aggregates
  | .sort child _ => child.outputSchema
  | .limit child _ => child.outputSchema

def PhysicalPlan.width (plan : PhysicalPlan) : Nat :=
  plan.outputSchema.length

/-- Some columns of a row, by position. -/
def pick (columns : List Nat) (row : Row) : Row :=
  columns.map (fun index => row.getD index .raised)

/-! ## What scans read -/

/-- The rows that each scan of a logical plan gets, as wide as its table. -/
structure Reads where
  rows : LogicalScan → List Row
  width : ∀ source, ∀ row ∈ rows source, row.length = source.schema.length

/-- Every scan gets its whole table. -/
def Tables.reads (tables : Tables) : Reads where
  rows source := tables.contents source.sourcePaths source.schema
  width _ row member := conforms_length (tables.conforming _ _ row member)

instance : Coe Tables Reads := ⟨Tables.reads⟩

/-- What the files of every table hold: the rows of each row group of a file, in all columns of the table. -/
structure StoredTables where
  rowGroup : List String → Schema → String → Nat → List Row
  width : ∀ paths schema path index, ∀ row ∈ rowGroup paths schema path index, row.length = schema.length

/-- Whether a scan reads a column of its files; the values of partition columns are only appended. -/
def ParquetScan.readsColumn (scan : ParquetScan) : Bool :=
  scan.schema.any (fun field => !scan.partitionColumns.any (fun column => column.name = field.name))

/-- The rows of the row groups selected of a table's files. -/
def selectedRows (stored : StoredTables) (paths : List String) (schema : Schema)
    (fragments : List PhysicalFileFragment) : List Row :=
  fragments.flatMap (fun fragment =>
    fragment.selectedRowGroups.flatMap (stored.rowGroup paths schema fragment.path))

/-- The rows a scan gets, in all columns of its table. Where no column is read there is no row to append
partition values to. -/
def scannedRows (stored : StoredTables) (scan : ParquetScan) : List Row :=
  if scan.readsColumn then selectedRows stored scan.sourcePaths scan.tableSchema scan.fragments else []

theorem width_selectedRows {stored : StoredTables} {paths : List String} {schema : Schema}
    {fragments : List PhysicalFileFragment} :
    ∀ row ∈ selectedRows stored paths schema fragments, row.length = schema.length := by
  intro row member
  obtain ⟨fragment, _, inFragment⟩ := List.mem_flatMap.mp member
  obtain ⟨index, _, inGroup⟩ := List.mem_flatMap.mp inFragment
  exact stored.width _ _ _ _ row inGroup

theorem width_scannedRows {stored : StoredTables} {scan : ParquetScan} :
    ∀ row ∈ scannedRows stored scan, row.length = scan.tableSchema.length := by
  intro row member
  unfold scannedRows at member
  split at member
  · exact width_selectedRows row member
  · cases member

/-! ## Results -/

/-- The results a logical plan may return. -/
def Returns (reads : Reads) : LogicalPlan → List Row → Prop
  | .scan source, result => result = reads.rows source
  | .join left right leftKeyIndex rightKeyIndex joinType residualPredicate, result =>
    ∃ leftRows rightRows, Returns reads left leftRows ∧ Returns reads right rightRows ∧
      result.Perm (joinRows (joinMatches leftKeyIndex rightKeyIndex residualPredicate) joinType
        right.width leftRows rightRows)
  | .filter child predicate, result =>
    ∃ input, Returns reads child input ∧ result = filterRows predicate input
  | .projection child items, result =>
    ∃ input, Returns reads child input ∧ result = input.map (projectRow items)
  | .aggregate child groupBy aggregates, result =>
    ∃ input, Returns reads child input ∧ result.Perm (aggregateRows groupBy aggregates input)
  | .sort child keys, result => ∃ input, Returns reads child input ∧ result = sortRows keys input
  | .limit child limit, result =>
    ∃ input, Returns reads child input ∧ result = input.take limit.toNat

/-- The results a physical plan may deliver. -/
def Delivers (stored : StoredTables) : PhysicalPlan → List Row → Prop
  | .parquetScan scan, result => result = (scannedRows stored scan).map (pick scan.columns)
  | .hashJoin left right leftKeyIndex rightKeyIndex _ joinType residualPredicate, result =>
    ∃ leftRows rightRows, Delivers stored left leftRows ∧ Delivers stored right rightRows ∧
      result.Perm (joinRows (joinMatches leftKeyIndex rightKeyIndex residualPredicate) joinType
        right.width leftRows rightRows)
  | .filter child predicate, result =>
    ∃ input, Delivers stored child input ∧ result = filterRows predicate input
  | .projection child items, result =>
    ∃ input, Delivers stored child input ∧ result = input.map (projectRow items)
  | .hashAggregate child groupBy aggregates, result =>
    ∃ input, Delivers stored child input ∧ result.Perm (aggregateRows groupBy aggregates input)
  | .scalarAggregate child aggregates, result =>
    ∃ input, Delivers stored child input ∧ result = [groupOutput aggregates ([], input)]
  | .sort child keys, result => ∃ input, Delivers stored child input ∧ result = sortRows keys input
  | .limit child limit, result =>
    ∃ input, Delivers stored child input ∧ result = input.take limit.toNat

/-- The deterministic result of a plan is one of those it may return. -/
theorem returns_rows (tables : Tables) (plan : LogicalPlan) : Returns tables plan (rows tables plan) := by
  induction plan with
  | scan source => rfl
  | join left right leftKeyIndex rightKeyIndex joinType residualPredicate ihLeft ihRight =>
    exact ⟨_, _, ihLeft, ihRight, List.Perm.refl _⟩
  | filter child predicate hypothesis => exact ⟨_, hypothesis, rfl⟩
  | projection child items hypothesis => exact ⟨_, hypothesis, rfl⟩
  | aggregate child groupBy aggregates hypothesis => exact ⟨_, hypothesis, List.Perm.refl _⟩
  | sort child keys hypothesis => exact ⟨_, hypothesis, rfl⟩
  | limit child limit hypothesis => exact ⟨_, hypothesis, rfl⟩

theorem length_of_returns {reads : Reads} {plan : LogicalPlan} {result : List Row}
    (returned : Returns reads plan result) : ∀ row ∈ result, row.length = plan.width := by
  induction plan generalizing result with
  | scan source =>
    intro row member
    obtain rfl : result = _ := returned
    exact reads.width source row member
  | join left right leftKeyIndex rightKeyIndex joinType residualPredicate leftWidth rightWidth =>
    obtain ⟨leftRows, rightRows, leftReturned, rightReturned, same⟩ := returned
    intro row member
    exact length_joinRows (leftWidth leftReturned) (rightWidth rightReturned) row (same.mem_iff.mp member)
  | filter child predicate childWidth =>
    obtain ⟨input, inputReturned, rfl⟩ := returned
    intro row member
    exact childWidth inputReturned row (List.mem_of_mem_filter member)
  | projection child items _ =>
    obtain ⟨input, _, rfl⟩ := returned
    intro row member
    obtain ⟨source, _, rfl⟩ := List.mem_map.mp member
    simp [projectRow, LogicalPlan.width, LogicalPlan.outputSchema, namedFields]
  | aggregate child groupBy aggregates _ =>
    obtain ⟨input, _, same⟩ := returned
    intro row member
    rw [length_aggregateRows row (same.mem_iff.mp member)]
    simp [LogicalPlan.width, LogicalPlan.outputSchema, namedFields]
  | sort child keys childWidth =>
    obtain ⟨input, inputReturned, rfl⟩ := returned
    intro row member
    exact childWidth inputReturned row ((List.mem_insertionSort _).mp member)
  | limit child limit childWidth =>
    obtain ⟨input, inputReturned, rfl⟩ := returned
    intro row member
    exact childWidth inputReturned row (List.mem_of_mem_take member)

end KernelLake.PhysicalPlans
