import KernelLake.PhysicalPlans
import KernelLake.Pruning

/-!
Conversion of logical plans to physical ones.

A scan is narrowed to its required columns, so everything above it has to be renumbered. The planner
finds the numbering by searching the converted input for the nearest scan, join, projection or
aggregate; projections that would only copy their input are left out of the physical plan.
-/

namespace KernelLake.PhysicalPlanner

open KernelLake.Types KernelLake.Expressions KernelLake.Evaluation KernelLake.LogicalPlans
open KernelLake.PhysicalPlans KernelLake.Pruning KernelLake.Library.Doubles

/-! ## Renumbering columns -/

mutual

/-- An expression with every column index replaced by what `resolve` finds for it. -/
def remapColumnsVia (resolve : String → Nat → Except String Nat) : Expression → Except String Expression
  | .column name columnIndex type => do
    return .column name (← resolve name columnIndex) type
  | .literal value type => return .literal value type
  | .binary op left right type => do
    return .binary op (← remapColumnsVia resolve left) (← remapColumnsVia resolve right) type
  | .unary op operand type => do return .unary op (← remapColumnsVia resolve operand) type
  | .cast operand type => do return .cast (← remapColumnsVia resolve operand) type
  | .extract part operand type => do return .extract part (← remapColumnsVia resolve operand) type
  | .substring operand start length type => do
    return .substring (← remapColumnsVia resolve operand) start length type
  | .between value lower upper => do
    return .between (← remapColumnsVia resolve value) (← remapColumnsVia resolve lower)
      (← remapColumnsVia resolve upper)
  | .like value pattern negated => do return .like (← remapColumnsVia resolve value) pattern negated
  | .caseWhen branches type => do return .caseWhen (← remapBranchesVia resolve branches) type
  | .aggregate function argument type => do
    return .aggregate function (← remapColumnsVia resolve argument) type
  | .countStar type => return .countStar type

def remapBranchesVia (resolve : String → Nat → Except String Nat) :
    CaseBranches → Except String CaseBranches
  | .done => return .done
  | .otherwise result => do return .otherwise (← remapColumnsVia resolve result)
  | .when condition result rest => do
    return .when (← remapColumnsVia resolve condition) (← remapColumnsVia resolve result)
      (← remapBranchesVia resolve rest)

end

/-- Where a column map sends a position; positions outside it and pruned ones have no place. -/
def lookUp (columnMap : List (Option Nat)) (index : Nat) : Option Nat :=
  (columnMap[index]?).join

def resolveColumn (boundary : List (Option Nat)) (name : String) (index : Nat) : Except String Nat :=
  match lookUp boundary index with
  | some place => .ok place
  | none => .error ("physical planner: column '" ++ name ++
      "' referenced above the scan but missing from its pruned column list (internal error)")

def remapColumns (boundary : List (Option Nat)) (expression : Expression) : Except String Expression :=
  remapColumnsVia (resolveColumn boundary) expression

/-- A residual predicate refers to both inputs of its join at once. -/
def resolveResidual (leftMap rightMap : List (Option Nat)) (leftNarrowedCount : Nat) (name : String)
    (index : Nat) : Except String Nat :=
  if index < leftMap.length then
    match lookUp leftMap index with
    | some place => .ok place
    | none => .error ("physical planner: column '" ++ name ++
        "' referenced by a JOIN's residual predicate but missing from the left side's pruned column " ++
        "list (internal error)")
  else
    match lookUp rightMap (index - leftMap.length) with
    | some place => .ok (leftNarrowedCount + place)
    | none => .error ("physical planner: column '" ++ name ++
        "' referenced by a JOIN's residual predicate but missing from the right side's pruned column " ++
        "list (internal error)")

def remapJoinResidualPredicate (leftMap rightMap : List (Option Nat)) (leftNarrowedCount : Nat)
    (expression : Expression) : Except String Expression :=
  remapColumnsVia (resolveResidual leftMap rightMap leftNarrowedCount) expression

def remapNamed (boundary : List (Option Nat)) (items : List NamedExpression) :
    Except String (List NamedExpression) :=
  items.mapM (fun item => do return { item with expr := ← remapColumns boundary item.expr })

def remapKeys (boundary : List (Option Nat)) (keys : List SortKey) : Except String (List SortKey) :=
  keys.mapM (fun key => do return { key with expr := ← remapColumns boundary key.expr })

/-! ## Projections that only copy -/

/-- An item that passes on the input column at its own position under its own name. -/
def copiesColumn (childSchema : Schema) (position : Nat) (item : NamedExpression) : Bool :=
  match item.expr with
  | .column _ columnIndex _ =>
    columnIndex = position && (childSchema[position]?).map Field.name = some item.name
  | _ => false

def isIdentityProjection (items : List NamedExpression) (childSchema : Schema) : Bool :=
  items.length = childSchema.length &&
    (List.range items.length).all
      (fun position => (items[position]?).any (copiesColumn childSchema position))

/-! ## Estimates -/

def estimateSelectivity : Expression → Float
  | .binary .and left right _ => estimateSelectivity left * estimateSelectivity right
  | .binary .or left right _ =>
    let union := estimateSelectivity left + estimateSelectivity right -
      estimateSelectivity left * estimateSelectivity right
    if compareDoubles union 1.0 = some .lt then union else 1.0
  | .binary .equal _ _ _ => 0.1
  | .binary .notEqual _ _ _ => 0.9
  | .binary .less _ _ _ => 0.33
  | .binary .lessEqual _ _ _ => 0.33
  | .binary .greater _ _ _ => 0.33
  | .binary .greaterEqual _ _ _ => 0.33
  | .between .. => 0.25
  | .unary .not operand _ => 1.0 - estimateSelectivity operand
  | .unary .isNull _ _ => 0.05
  | .unary .isNotNull _ _ => 0.95
  | .like .. => 0.25
  | _ => 1.0

/-- A rough row count; it only decides which input of an inner join is built into the hash table. -/
def estimateRowCount : PhysicalPlan → Option Int
  | .parquetScan scan => some (scan.fragments.map PhysicalFileFragment.fileRowCount).sum
  | .filter child predicate => do
    let childEstimate ← estimateRowCount child
    roundHalfAway (ofInteger childEstimate * estimateSelectivity predicate)
  | .hashJoin left right _ _ _ _ _ => do
    let leftEstimate ← estimateRowCount left
    let rightEstimate ← estimateRowCount right
    return max leftEstimate rightEstimate
  | .projection child _ => estimateRowCount child
  | .hashAggregate child _ _ => estimateRowCount child
  | .scalarAggregate child _ => estimateRowCount child
  | .sort child _ => estimateRowCount child
  | .limit child _ => estimateRowCount child

/-! ## Boundaries -/

/-- The column map of an `identity_boundary`. -/
def identityMap (width : Nat) : List (Option Nat) :=
  (List.range width).map some

/-- The column map of the nearest scan, join, projection or aggregate. Every plan has one. -/
def findScanBoundary : PhysicalPlan → List (Option Nat)
  | .parquetScan scan => scan.originalColumnMap
  | .hashJoin _ _ _ _ originalColumnMap _ _ => originalColumnMap
  | .projection child items => identityMap (PhysicalPlan.projection child items).width
  | .hashAggregate child groupBy aggregates =>
    identityMap (PhysicalPlan.hashAggregate child groupBy aggregates).width
  | .scalarAggregate child aggregates =>
    identityMap (PhysicalPlan.scalarAggregate child aggregates).width
  | .filter child _ => findScanBoundary child
  | .sort child _ => findScanBoundary child
  | .limit child _ => findScanBoundary child

/-- Whether an operator over this plan refers to columns in the numbering of a scan or join. -/
def referencesScanSchema : LogicalPlan → Bool
  | .sort child _ => referencesScanSchema child
  | .limit child _ => referencesScanSchema child
  | .filter child _ => !child.isAggregate
  | .scan _ => true
  | .join .. => true
  | _ => false

/-! ## Conversion -/

/-- A file of a table as its metadata describes it. -/
structure ResolvedFile where
  metadata : FileMetadata
  rowCount : Int

/-- The files of every table. -/
abbrev ResolvedFiles := LogicalScan → List ResolvedFile

def requiredPositions (source : LogicalScan) : List Nat :=
  (List.range source.schema.length).filter
    (fun index => (source.schema[index]?).any (fun field => source.requiredColumns.contains field.name))

/-- The columns a scan reads, in the order of the schema. A query that needs no column at all still
reads the first one, for the number of rows. -/
def keptColumns (source : LogicalScan) : List Nat :=
  if (requiredPositions source).isEmpty && !source.schema.isEmpty then [0] else requiredPositions source

/-- The required columns that are partition columns. -/
def keptPartitionColumns (source : LogicalScan) : List PartitionColumn :=
  (requiredPositions source).filterMap (fun index => do
    let field ← source.schema[index]?
    source.partitionColumns.find? (fun column => column.name = field.name))

def scanFragments (files : List ResolvedFile) (predicates : List PushablePredicate) :
    List PhysicalFileFragment :=
  files.filterMap (fun file =>
    let decision := evaluatePruning file.metadata predicates
    if decision.selectedRowGroups.isEmpty && !file.metadata.rowGroups.isEmpty then none
    else some ⟨file.metadata.path, file.rowCount, decision.selectedRowGroups⟩)

def convertScan (files : ResolvedFiles) (source : LogicalScan) : ParquetScan :=
  let kept := keptColumns source
  { fragments := scanFragments (files source) source.pushablePredicates
    sourcePaths := source.sourcePaths
    tableSchema := source.schema
    columns := kept
    schema := kept.filterMap (fun index => source.schema[index]?)
    partitionColumns := keptPartitionColumns source
    originalColumnMap :=
      (List.range source.schema.length).map (fun index => kept.findIdx? (· == index)) }

/-- Whether the inputs of a join are exchanged: only for inner joins, when the left one looks smaller. -/
def swapForBuildSide (joinType : JoinType) (left right : PhysicalPlan) : Bool :=
  joinType = .inner &&
    match estimateRowCount left, estimateRowCount right with
    | some leftEstimate, some rightEstimate => leftEstimate < rightEstimate
    | _, _ => false

/-- The column map of a join: each input's map, moved to where the input's columns are delivered. -/
def combinedColumnMap (swap : Bool) (joinType : JoinType) (leftMap rightMap : List (Option Nat))
    (leftNarrowedCount rightNarrowedCount : Nat) : List (Option Nat) :=
  let leftOffset := if swap then rightNarrowedCount else 0
  let rightOffset := if swap then 0 else leftNarrowedCount
  let leftPart := leftMap.map (Option.map (leftOffset + ·))
  if joinType = .leftSemi || joinType = .leftAnti then leftPart
  else leftPart ++ rightMap.map (Option.map (rightOffset + ·))

def convertJoin (left right : PhysicalPlan) (leftKeyIndex rightKeyIndex : Nat) (joinType : JoinType)
    (residualPredicate : Option Expression) : Except String PhysicalPlan :=
  let leftMap := findScanBoundary left
  let rightMap := findScanBoundary right
  match lookUp leftMap leftKeyIndex, lookUp rightMap rightKeyIndex with
  | some leftKey, some rightKey => do
    let swap := swapForBuildSide joinType left right
    let columnMap := combinedColumnMap swap joinType leftMap rightMap left.width right.width
    let residual ← residualPredicate.mapM (remapJoinResidualPredicate leftMap rightMap left.width)
    if swap then return .hashJoin right left rightKey leftKey columnMap joinType residual
    else return .hashJoin left right leftKey rightKey columnMap joinType residual
  | _, _ =>
    .error "physical planner: JOIN key column missing from its pruned column list (internal error)"

/-- The numbering an operator over a converted plan uses, if its references have to be renumbered. -/
def boundaryFor (logicalChild : LogicalPlan) (child : PhysicalPlan) : Option (List (Option Nat)) :=
  if referencesScanSchema logicalChild then some (findScanBoundary child) else none

def remapItemsFor (boundary : Option (List (Option Nat))) (items : List NamedExpression) :
    Except String (List NamedExpression) :=
  match boundary with
  | some columnMap => remapNamed columnMap items
  | none => return items

/-- `convert`, which `build_physical_plan` calls on the whole plan. -/
def convert (files : ResolvedFiles) : LogicalPlan → Except String PhysicalPlan
  | .scan source => return .parquetScan (convertScan files source)
  | .join left right leftKeyIndex rightKeyIndex joinType residualPredicate => do
    let left' ← convert files left
    let right' ← convert files right
    convertJoin left' right' leftKeyIndex rightKeyIndex joinType residualPredicate
  | .filter child predicate => do
    let child' ← convert files child
    match boundaryFor child child' with
    | some columnMap => return .filter child' (← remapColumns columnMap predicate)
    | none => return .filter child' predicate
  | .projection child items => do
    let child' ← convert files child
    let items' ← remapItemsFor (boundaryFor child child') items
    if isIdentityProjection items' child'.outputSchema then return child'
    else return .projection child' items'
  | .aggregate child groupBy aggregates => do
    let child' ← convert files child
    let aggregates' ← remapItemsFor (boundaryFor child child') aggregates
    if groupBy.isEmpty then return .scalarAggregate child' aggregates'
    else return .hashAggregate child' (← remapItemsFor (boundaryFor child child') groupBy) aggregates'
  | .sort child keys => do
    let child' ← convert files child
    match boundaryFor child child' with
    | some columnMap => return .sort child' (← remapKeys columnMap keys)
    | none => return .sort child' keys
  | .limit child limit => do return .limit (← convert files child) limit

end KernelLake.PhysicalPlanner
