import KernelLake.RemapProofs

/-!
Where the columns of a logical plan are delivered.

A converted plan delivers some columns of the logical rows in some order. `Layout` records which, and
that the column map found by searching the physical plan agrees with it. The search can be misled in
one way: a projection that was left out because it copies its input has changed the numbering, and
the search runs on to the scan or join below it. `anchored` says that this never matters: such a
projection keeps every column at its position and, under a join, keeps all columns.
-/

namespace KernelLake.Layouts

open KernelLake.Types KernelLake.Expressions KernelLake.Evaluation KernelLake.LogicalPlans
open KernelLake.PlanSemantics KernelLake.ColumnProofs KernelLake.PhysicalPlans
open KernelLake.PhysicalPlanner KernelLake.RemapProofs KernelLake.Library.Relations
open KernelLake.Library.Results
open KernelLake.Library.Doubles

/-! ## Anchored plans -/

/-- The rows the planner expects of a plan. -/
def expectedRows (files : ResolvedFiles) : LogicalPlan → Option Int
  | .scan source =>
    some ((scanFragments (files source) source.pushablePredicates).map PhysicalFileFragment.fileRowCount).sum
  | .join left right _ _ _ _ => do
    let leftRows ← expectedRows files left
    let rightRows ← expectedRows files right
    return max leftRows rightRows
  | .filter child predicate => do
    let childRows ← expectedRows files child
    roundHalfAway (ofInteger childRows * estimateSelectivity predicate)
  | .projection child _ => expectedRows files child
  | .aggregate child _ _ => expectedRows files child
  | .sort child _ => expectedRows files child
  | .limit child _ => expectedRows files child

/-- Whether a join's left input is expected to be the smaller one, so that an inner join exchanges its
inputs. -/
def exchanges (files : ResolvedFiles) (left right : LogicalPlan) (joinType : JoinType) : Bool :=
  joinType = .inner &&
    match expectedRows files left, expectedRows files right with
    | some leftRows, some rightRows => leftRows < rightRows
    | _, _ => false

/-- The columns a join delivers, as positions in the left row followed by the right row. -/
def joinPlaced (swap : Bool) (joinType : JoinType) (leftWidth : Nat) (leftPlaced rightPlaced : List Nat) :
    List Nat :=
  if joinType = .leftSemi || joinType = .leftAnti then leftPlaced
  else if swap then rightPlaced.map (leftWidth + ·) ++ leftPlaced
  else leftPlaced ++ rightPlaced.map (leftWidth + ·)

/-- The columns of a plan that are needed, in the order in which they are delivered. -/
def places (files : ResolvedFiles) : LogicalPlan → List Nat
  | .scan source => keptColumns source
  | .join left right _ _ joinType _ =>
    joinPlaced (exchanges files left right joinType) joinType left.width (places files left)
      (places files right)
  | .filter child _ => places files child
  | .projection child items => List.range (LogicalPlan.projection child items).width
  | .aggregate child groupBy aggregates =>
    List.range (LogicalPlan.aggregate child groupBy aggregates).width
  | .sort child _ => places files child
  | .limit child _ => places files child

def columnName (schema : Schema) (index : Nat) : String :=
  ((schema[index]?).map Field.name).getD ""

/-- The column an expression copies, if it is a bare column. -/
def copiedColumn : Expression → Option Nat
  | .column _ columnIndex _ => some columnIndex
  | _ => none

/-- Whether a projection is left out of the physical plan: its items are the needed columns of its
input in their order, under their own names. -/
def elides (files : ResolvedFiles) (child : LogicalPlan) (items : List NamedExpression) : Bool :=
  items.map (fun item => copiedColumn item.expr) = (places files child).map some &&
    items.map NamedExpression.name = (places files child).map (columnName child.outputSchema)

/-- Every item is the input column at the item's own position. -/
def keepsPositions (items : List NamedExpression) : Bool :=
  (List.range items.length).all (fun position =>
    (items[position]?).any (fun item => copiedColumn item.expr = some position))

/-- The search for a column map finds the numbering of this plan's output. -/
def searchable (files : ResolvedFiles) : LogicalPlan → Bool
  | .projection child items =>
    !elides files child items || (keepsPositions items && searchable files child)
  | .filter child _ => searchable files child
  | .sort child _ => searchable files child
  | .limit child _ => searchable files child
  | _ => true

/-- The map that the search finds covers exactly this plan's output. -/
def closed (files : ResolvedFiles) : LogicalPlan → Bool
  | .projection child items =>
    !elides files child items || (items.length = child.width && closed files child)
  | .filter child _ => closed files child
  | .sort child _ => closed files child
  | .limit child _ => closed files child
  | .join _ right _ _ joinType _ => joinType = .leftSemi || joinType = .leftAnti || closed files right
  | _ => true

/-- Every search that conversion makes finds the right numbering. Residual predicates stand only on
joins whose inputs are never exchanged, as the planner builds them. -/
def anchored (files : ResolvedFiles) : LogicalPlan → Bool
  | .scan _ => true
  | .join left right _ _ joinType residualPredicate =>
    anchored files left && anchored files right && searchable files left && closed files left &&
      searchable files right && (joinType != .inner || residualPredicate.isNone)
  | .filter child _ => anchored files child && (!referencesScanSchema child || searchable files child)
  | .projection child _ => anchored files child && (!referencesScanSchema child || searchable files child)
  | .aggregate child _ _ => anchored files child && (!referencesScanSchema child || searchable files child)
  | .sort child _ => anchored files child && (!referencesScanSchema child || searchable files child)
  | .limit child _ => anchored files child

/-! ## Layouts -/

/-- The rows that the scans of a plan get once they are converted. -/
def scanned (files : ResolvedFiles) (stored : StoredTables) : Reads where
  rows source := scannedRows stored (convertScan files source)
  width _ := width_scannedRows

/-- A physical plan delivers the columns `placed` of a logical plan's rows, in this order. -/
structure Layout (files : ResolvedFiles) (stored : StoredTables) (plan : LogicalPlan) (physical : PhysicalPlan)
    (placed : List Nat) : Prop where
  named : physical.outputSchema.map Field.name = placed.map (columnName plan.outputSchema)
  expected : estimateRowCount physical = expectedRows files plan
  within : ∀ index ∈ placed, index < plan.width
  delivers : ∀ result, Delivers stored physical result ↔
    ∃ original, Returns (scanned files stored) plan original ∧ result = original.map (pick placed)
  own : referencesScanSchema plan = false → placed = List.range plan.width
  located : searchable files plan = true → Located (findScanBoundary physical) placed
  covered : closed files plan = true → (findScanBoundary physical).length = plan.width

theorem Layout.width {files : ResolvedFiles} {stored : StoredTables} {plan : LogicalPlan}
    {physical : PhysicalPlan} {placed : List Nat} (layout : Layout files stored plan physical placed) :
    physical.width = placed.length := by
  simpa [PhysicalPlan.width] using congrArg List.length layout.named

theorem pick_range {row : Row} {width : Nat} (length : row.length = width) :
    pick (List.range width) row = row := by
  subst length
  refine List.ext_getElem (by simp [pick]) (fun index _ inRow => ?_)
  simp [pick, List.getD_eq_getElem?_getD, inRow]

theorem map_eq_self {change : Row → Row} {input : List Row}
    (unchanged : ∀ row ∈ input, change row = row) : input.map change = input :=
  (List.map_congr_left unchanged).trans (List.map_id input)

theorem columnName_range (schema : Schema) :
    (List.range schema.length).map (columnName schema) = schema.map Field.name := by
  refine List.ext_getElem (by simp) (fun index _ inSchema => ?_)
  have bound : index < schema.length := by simpa using inSchema
  simp [columnName, bound]

theorem located_identityMap (width : Nat) : Located (identityMap width) (List.range width) := by
  intro index place found
  simp only [lookUp, identityMap, List.getElem?_map, Option.join_eq_some_iff] at found
  obtain ⟨position, inRange, same⟩ := Option.map_eq_some_iff.mp found
  obtain ⟨bound, isIndex⟩ := List.getElem?_eq_some_iff.mp inRange
  simp only [List.getElem_range, Option.some.injEq] at isIndex same
  subst isIndex same
  exact inRange

/-! ## Unary operators -/

section Unary

variable {delivered returned : List Row → Prop} {change change' : Row → Row}

/-- An operator on changed rows that is the changed operator on the rows. -/
theorem delivers_operator {logical physical : List Row → List Row}
    (same : ∀ result, delivered result ↔ ∃ original, returned original ∧ result = original.map change)
    (commutes : ∀ input, returned input → physical (input.map change) = (logical input).map change')
    (result : List Row) :
    (∃ input, delivered input ∧ result = physical input) ↔
      ∃ original, (∃ input, returned input ∧ original = logical input) ∧
        result = original.map change' := by
  constructor
  · rintro ⟨input, isDelivered, rfl⟩
    obtain ⟨original, isReturned, rfl⟩ := (same input).mp isDelivered
    exact ⟨_, ⟨original, isReturned, rfl⟩, commutes original isReturned⟩
  · rintro ⟨original, ⟨input, isReturned, rfl⟩, rfl⟩
    exact ⟨_, (same _).mpr ⟨input, isReturned, rfl⟩, (commutes input isReturned).symm⟩

/-- The same for an operator whose output order is open. -/
theorem delivers_permuted {logical physical : List Row → List Row}
    (same : ∀ result, delivered result ↔ ∃ original, returned original ∧ result = original.map change)
    (commutes : ∀ input, returned input → physical (input.map change) = (logical input).map change')
    (result : List Row) :
    (∃ input, delivered input ∧ result.Perm (physical input)) ↔
      ∃ original : List Row, (∃ input, returned input ∧ original.Perm (logical input)) ∧
        result = original.map change' := by
  constructor
  · rintro ⟨input, isDelivered, permuted⟩
    obtain ⟨source, isReturned, rfl⟩ := (same input).mp isDelivered
    rw [commutes source isReturned] at permuted
    obtain ⟨original, isImage, isPermuted⟩ := (congrFun₂ (List.eq_map_comp_perm change') _ _).mpr permuted
    exact ⟨original, ⟨source, isReturned, isPermuted⟩, isImage⟩
  · rintro ⟨original, ⟨input, isReturned, permuted⟩, rfl⟩
    refine ⟨_, (same _).mpr ⟨input, isReturned, rfl⟩, ?_⟩
    rw [commutes input isReturned]
    exact permuted.map change'

end Unary

section Renumbering

variable {files : ResolvedFiles} {stored : StoredTables} {child : LogicalPlan} {child' : PhysicalPlan}
  {placed : List Nat}

/-- An operator's references are renumbered by a map that agrees with the layout, or they need not be
because the input is delivered as it is. -/
theorem boundaryFor_cases (layout : Layout files stored child child' placed)
    (anchoredHere : (!referencesScanSchema child || searchable files child) = true) :
    (∃ boundary, boundaryFor child child' = some boundary ∧ Located boundary placed) ∨
      boundaryFor child child' = none ∧
        ∀ input, Returns (scanned files stored) child input → ∀ row ∈ input, pick placed row = row := by
  cases references : referencesScanSchema child with
  | true =>
    rw [references] at anchoredHere
    exact .inl ⟨findScanBoundary child', by simp [boundaryFor, references],
      layout.located (by simpa using anchoredHere)⟩
  | false =>
    refine .inr ⟨by simp [boundaryFor, references], fun input returned row member => ?_⟩
    rw [layout.own references]
    exact pick_range (length_of_returns returned row member)

theorem projectRows_for (layout : Layout files stored child child' placed)
    (anchoredHere : (!referencesScanSchema child || searchable files child) = true)
    {items items' : List NamedExpression}
    (ran : remapItemsFor (boundaryFor child child') items = .ok items') {input : List Row}
    (returned : Returns (scanned files stored) child input) :
    (input.map (pick placed)).map (projectRow items') = input.map (projectRow items) := by
  rcases boundaryFor_cases layout anchoredHere with ⟨boundary, isBoundary, located⟩ | ⟨noBoundary, same⟩
  · rw [isBoundary] at ran
    exact projectRows_remap located ran input
  · rw [noBoundary] at ran
    obtain rfl : items = items' := pure_eq_ok.mp ran
    rw [map_eq_self (same input returned)]

theorem aggregateRows_for (layout : Layout files stored child child' placed)
    (anchoredHere : (!referencesScanSchema child || searchable files child) = true)
    {groupBy groupBy' aggregates aggregates' : List NamedExpression}
    (keysRan : remapItemsFor (boundaryFor child child') groupBy = .ok groupBy')
    (ran : remapItemsFor (boundaryFor child child') aggregates = .ok aggregates') {input : List Row}
    (returned : Returns (scanned files stored) child input) :
    aggregateRows groupBy' aggregates' (input.map (pick placed)) =
      aggregateRows groupBy aggregates input := by
  rcases boundaryFor_cases layout anchoredHere with ⟨boundary, isBoundary, located⟩ | ⟨noBoundary, same⟩
  · rw [isBoundary] at ran keysRan
    exact aggregateRows_remap located keysRan ran input
  · rw [noBoundary] at ran keysRan
    obtain rfl : aggregates = aggregates' := pure_eq_ok.mp ran
    obtain rfl : groupBy = groupBy' := pure_eq_ok.mp keysRan
    rw [map_eq_self (same input returned)]

theorem names_remapItemsFor {boundary : Option (List (Option Nat))} {items items' : List NamedExpression}
    (ran : remapItemsFor boundary items = .ok items') :
    items'.map NamedExpression.name = items.map NamedExpression.name := by
  cases boundary with
  | none =>
    obtain rfl : items = items' := pure_eq_ok.mp ran
    rfl
  | some columnMap => exact names_remapNamed ran

theorem length_remapItemsFor {boundary : Option (List (Option Nat))} {items items' : List NamedExpression}
    (ran : remapItemsFor boundary items = .ok items') : items'.length = items.length := by
  simpa using congrArg List.length (names_remapItemsFor ran)

theorem names_namedFields (items : List NamedExpression) :
    (namedFields items).map Field.name = items.map NamedExpression.name := by
  simp [namedFields]

end Renumbering

/-! ## Operators -/

section Operators

variable {files : ResolvedFiles} {stored : StoredTables} {child : LogicalPlan} {child' : PhysicalPlan}
  {placed : List Nat}

/-- An operator that keeps its input's columns. -/
theorem layout_of_child (layout : Layout files stored child child' placed) {plan : LogicalPlan}
    {physical : PhysicalPlan} (schema : plan.outputSchema = child.outputSchema)
    (physicalSchema : physical.outputSchema = child'.outputSchema)
    (expected : estimateRowCount physical = expectedRows files plan)
    (references : referencesScanSchema plan = false → referencesScanSchema child = false)
    (search : searchable files plan = searchable files child)
    (close : closed files plan = closed files child)
    (boundary : findScanBoundary physical = findScanBoundary child')
    (delivers : ∀ result, Delivers stored physical result ↔
      ∃ original, Returns (scanned files stored) plan original ∧ result = original.map (pick placed)) :
    Layout files stored plan physical placed where
  named := by rw [schema, physicalSchema]; exact layout.named
  expected := expected
  within := by rw [LogicalPlan.width, schema]; exact layout.within
  delivers := delivers
  own ownNumbering := by rw [LogicalPlan.width, schema]; exact layout.own (references ownNumbering)
  located found := by rw [boundary]; exact layout.located (search ▸ found)
  covered found := by rw [boundary, LogicalPlan.width, schema]; exact layout.covered (close ▸ found)

/-- The estimate of a filter does not look at column indices. -/
theorem estimateSelectivity_remap {resolve : String → Nat → Except String Nat} :
    (expression : Expression) → (remapped : Expression) →
      remapColumnsVia resolve expression = .ok remapped →
      estimateSelectivity remapped = estimateSelectivity expression
  | .binary op left right type, remapped, ran => by
    simp only [remapColumnsVia, bind_eq_ok, pure_eq_ok] at ran
    obtain ⟨left', leftRan, right', rightRan, rfl⟩ := ran
    have leftSame := estimateSelectivity_remap left left' leftRan
    have rightSame := estimateSelectivity_remap right right' rightRan
    cases op <;> simp only [estimateSelectivity, leftSame, rightSame]
  | .unary op operand type, remapped, ran => by
    simp only [remapColumnsVia, bind_eq_ok, pure_eq_ok] at ran
    obtain ⟨operand', operandRan, rfl⟩ := ran
    have operandSame := estimateSelectivity_remap operand operand' operandRan
    cases op <;> simp only [estimateSelectivity, operandSame]
  | .column .., remapped, ran => by
    simp only [remapColumnsVia, bind_eq_ok, pure_eq_ok] at ran
    obtain ⟨_, _, rfl⟩ := ran
    rfl
  | .literal .., remapped, ran | .countStar .., remapped, ran => by
    simp only [remapColumnsVia, pure_eq_ok] at ran
    subst ran
    rfl
  | .cast .., remapped, ran | .extract .., remapped, ran | .substring .., remapped, ran
  | .like .., remapped, ran | .caseWhen .., remapped, ran | .aggregate .., remapped, ran => by
    simp only [remapColumnsVia, bind_eq_ok, pure_eq_ok] at ran
    obtain ⟨_, _, rfl⟩ := ran
    rfl
  | .between .., remapped, ran => by
    simp only [remapColumnsVia, bind_eq_ok, pure_eq_ok] at ran
    obtain ⟨_, _, _, _, _, _, rfl⟩ := ran
    rfl

theorem layout_filter (layout : Layout files stored child child' placed)
    (anchoredHere : (!referencesScanSchema child || searchable files child) = true)
    {predicate : Expression} {physical : PhysicalPlan} (childRan : convert files child = .ok child')
    (ran : convert files (.filter child predicate) = .ok physical) :
    Layout files stored (.filter child predicate) physical placed := by
  have references : referencesScanSchema (.filter child predicate) = false →
      referencesScanSchema child = false := by
    intro overAggregate
    cases child with
    | aggregate child groupBy aggregates => rfl
    | _ => cases overAggregate
  simp only [convert, childRan, bind_eq_ok, Except.ok.injEq, exists_eq_left'] at ran
  rcases boundaryFor_cases layout anchoredHere with ⟨boundary, isBoundary, located⟩ | ⟨noBoundary, same⟩
  · rw [isBoundary] at ran
    simp only [bind_eq_ok, pure_eq_ok] at ran
    obtain ⟨remapped, remapRan, rfl⟩ := ran
    refine layout_of_child layout rfl rfl (by
      simp only [estimateRowCount, expectedRows, layout.expected, bind, Option.bind,
        estimateSelectivity_remap predicate _ remapRan])
      references rfl rfl rfl ?_
    exact delivers_operator layout.delivers (fun input _ => filterRows_remap located remapRan input)
  · rw [noBoundary] at ran
    obtain rfl := pure_eq_ok.mp ran
    refine layout_of_child layout rfl rfl
      (by simp only [estimateRowCount, expectedRows, layout.expected, bind, Option.bind])
      references rfl rfl rfl ?_
    refine delivers_operator layout.delivers (fun input returned => ?_)
    rw [map_eq_self (same input returned)]
    exact (map_eq_self (fun row member => same input returned row (List.mem_of_mem_filter member))).symm

theorem layout_sort (layout : Layout files stored child child' placed)
    (anchoredHere : (!referencesScanSchema child || searchable files child) = true)
    {keys : List SortKey} {physical : PhysicalPlan} (childRan : convert files child = .ok child')
    (ran : convert files (.sort child keys) = .ok physical) :
    Layout files stored (.sort child keys) physical placed := by
  simp only [convert, childRan, bind_eq_ok, Except.ok.injEq, exists_eq_left'] at ran
  rcases boundaryFor_cases layout anchoredHere with ⟨boundary, isBoundary, located⟩ | ⟨noBoundary, same⟩
  · rw [isBoundary] at ran
    simp only [bind_eq_ok, pure_eq_ok] at ran
    obtain ⟨remapped, remapRan, rfl⟩ := ran
    refine layout_of_child layout rfl rfl layout.expected id rfl rfl rfl ?_
    exact delivers_operator layout.delivers (fun input _ => sortRows_remap located remapRan input)
  · rw [noBoundary] at ran
    obtain rfl := pure_eq_ok.mp ran
    refine layout_of_child layout rfl rfl layout.expected id rfl rfl rfl ?_
    refine delivers_operator layout.delivers (fun input returned => ?_)
    rw [map_eq_self (same input returned)]
    exact (map_eq_self (fun row member =>
      same input returned row ((List.mem_insertionSort _).mp member))).symm

theorem layout_limit (layout : Layout files stored child child' placed) {limit : Int}
    {physical : PhysicalPlan} (childRan : convert files child = .ok child')
    (ran : convert files (.limit child limit) = .ok physical) :
    Layout files stored (.limit child limit) physical placed := by
  simp only [convert, childRan, bind_eq_ok, Except.ok.injEq, exists_eq_left', pure_eq_ok] at ran
  subst ran
  refine layout_of_child layout rfl rfl layout.expected id rfl rfl rfl ?_
  exact delivers_operator layout.delivers (fun input _ => List.map_take.symm)

/-- An operator that numbers its own columns. -/
theorem layout_own {plan : LogicalPlan} {physical : PhysicalPlan}
    (sameNames : physical.outputSchema.map Field.name = plan.outputSchema.map Field.name)
    (expected : estimateRowCount physical = expectedRows files plan)
    (boundary : findScanBoundary physical = identityMap physical.width)
    (delivers : ∀ result, Delivers stored physical result ↔
      ∃ original, Returns (scanned files stored) plan original ∧ result = original.map (pick (List.range plan.width))) :
    Layout files stored plan physical (List.range plan.width) := by
  have sameWidth : physical.width = plan.width := by
    simpa [PhysicalPlan.width, LogicalPlan.width] using congrArg List.length sameNames
  exact
    { named := sameNames.trans (columnName_range plan.outputSchema).symm
      expected := expected
      within := by simp
      delivers := delivers
      own := fun _ => rfl
      located := fun _ => by rw [boundary, sameWidth]; exact located_identityMap _
      covered := fun _ => by rw [boundary, sameWidth]; simp [identityMap] }

theorem projectRow_self (items : List NamedExpression) (row : Row) :
    pick (List.range items.length) (projectRow items row) = projectRow items row :=
  pick_range (by simp [projectRow])

attribute [local simp] convert

theorem layout_projection (layout : Layout files stored child child' placed)
    (anchoredHere : (!referencesScanSchema child || searchable files child) = true)
    {items items' : List NamedExpression}
    (ran : remapItemsFor (boundaryFor child child') items = .ok items') :
    Layout files stored (.projection child items) (.projection child' items')
      (List.range (LogicalPlan.projection child items).width) := by
  have sameNames : (PhysicalPlan.projection child' items').outputSchema.map Field.name =
      (LogicalPlan.projection child items).outputSchema.map Field.name := by
    simp only [PhysicalPlan.outputSchema, LogicalPlan.outputSchema, names_namedFields,
      names_remapItemsFor ran]
  refine layout_own sameNames layout.expected rfl ?_
  refine delivers_operator layout.delivers (fun input returned => ?_)
  rw [projectRows_for layout anchoredHere ran returned]
  refine (map_eq_self (fun row member => ?_)).symm
  obtain ⟨source, _, rfl⟩ := List.mem_map.mp member
  simpa [LogicalPlan.width, LogicalPlan.outputSchema, namedFields] using projectRow_self items source

theorem layout_aggregate (layout : Layout files stored child child' placed)
    (anchoredHere : (!referencesScanSchema child || searchable files child) = true)
    {groupBy aggregates : List NamedExpression} {physical : PhysicalPlan}
    (childRan : convert files child = .ok child')
    (ran : convert files (.aggregate child groupBy aggregates) = .ok physical) :
    Layout files stored (.aggregate child groupBy aggregates) physical
      (List.range (LogicalPlan.aggregate child groupBy aggregates).width) := by
  simp only [convert, childRan, bind_eq_ok, Except.ok.injEq, exists_eq_left'] at ran
  obtain ⟨aggregates', aggregatesRan, ran⟩ := ran
  have sameNames := names_remapItemsFor aggregatesRan
  have kept {input : List Row} : (aggregateRows groupBy aggregates input).map
      (pick (List.range (LogicalPlan.aggregate child groupBy aggregates).width)) =
        aggregateRows groupBy aggregates input := by
    refine map_eq_self (fun row member => pick_range ?_)
    simpa [LogicalPlan.width, LogicalPlan.outputSchema, namedFields] using length_aggregateRows row member
  split at ran
  · rename_i empty
    obtain rfl := pure_eq_ok.mp ran
    obtain rfl := List.isEmpty_iff.mp empty
    refine layout_own (by simp only [PhysicalPlan.outputSchema, LogicalPlan.outputSchema,
      names_namedFields, sameNames, List.map_append, List.map_nil, List.nil_append])
      layout.expected rfl ?_
    have keysRan : remapItemsFor (boundaryFor child child') [] = .ok [] := by
      cases boundaryFor child child' <;> rfl
    intro result
    refine Iff.trans ?_ (delivers_permuted layout.delivers (fun input returned =>
      (aggregateRows_for layout anchoredHere keysRan aggregatesRan returned).trans kept.symm) result)
    exact exists_congr (fun input => and_congr_right (fun _ => List.perm_singleton.symm))
  · simp only [bind_eq_ok, pure_eq_ok] at ran
    obtain ⟨groupBy', keysRan, rfl⟩ := ran
    have sameKeys := names_remapItemsFor keysRan
    refine layout_own (by simp only [PhysicalPlan.outputSchema, LogicalPlan.outputSchema,
      names_namedFields, sameNames, sameKeys, List.map_append]) layout.expected rfl ?_
    refine delivers_permuted layout.delivers (fun input returned => ?_)
    rw [aggregateRows_for layout anchoredHere keysRan aggregatesRan returned, kept]

/-! ## Projections left out -/

theorem isIdentityProjection_item {items : List NamedExpression} {schema : Schema}
    (identity : isIdentityProjection items schema = true) {position : Nat} {item : NamedExpression}
    (found : items[position]? = some item) :
    (∃ name type, item.expr = .column name position type) ∧
      (schema[position]?).map Field.name = some item.name := by
  simp only [isIdentityProjection, Bool.and_eq_true, List.all_eq_true] at identity
  have inRange : position < items.length := (List.getElem?_eq_some_iff.mp found).1
  have copies := identity.2 position (List.mem_range.mpr inRange)
  rw [found, Option.any_some] at copies
  unfold copiesColumn at copies
  split at copies
  · rename_i name columnIndex type shape
    simp only [Bool.and_eq_true, decide_eq_true_eq] at copies
    exact ⟨⟨name, type, by rw [shape, copies.1]⟩, copies.2⟩
  · cases copies

theorem isIdentityProjection_length {items : List NamedExpression} {schema : Schema}
    (identity : isIdentityProjection items schema = true) : items.length = schema.length := by
  simp only [isIdentityProjection, Bool.and_eq_true, decide_eq_true_eq] at identity
  exact identity.1

/-- The converted items are the columns of the physical input in their order. -/
theorem projectRow_identity {items : List NamedExpression} {schema : Schema}
    (identity : isIdentityProjection items schema = true) {row : Row} (width : row.length = schema.length) :
    projectRow items row = row := by
  have length := isIdentityProjection_length identity
  refine List.ext_getElem (by simp [projectRow, length, width]) (fun position inItems inRow => ?_)
  have inRange : position < items.length := by simpa [projectRow] using inItems
  obtain ⟨⟨name, type, shape⟩, -⟩ :=
    isIdentityProjection_item identity (List.getElem?_eq_getElem inRange)
  simp [projectRow, shape, evalIn, List.getD_eq_getElem?_getD, inRow]

theorem isIdentityProjection_names {items : List NamedExpression} {schema : Schema}
    (identity : isIdentityProjection items schema = true) :
    items.map NamedExpression.name = schema.map Field.name := by
  have length := isIdentityProjection_length identity
  refine List.ext_getElem (by simp [length]) (fun position inItems inSchema => ?_)
  have inRange : position < items.length := by simpa using inItems
  have bound : position < schema.length := by simpa using inSchema
  have sameName := (isIdentityProjection_item identity (List.getElem?_eq_getElem inRange)).2
  rw [List.getElem?_eq_getElem bound, Option.map_some, Option.some.injEq] at sameName
  simp [sameName]

theorem keepsPositions_copied {items : List NamedExpression} (keeps : keepsPositions items = true) :
    items.map (fun item => copiedColumn item.expr) = (List.range items.length).map some := by
  refine List.ext_getElem (by simp) (fun position inItems _ => ?_)
  have inRange : position < items.length := by simpa using inItems
  have kept := List.all_eq_true.mp keeps position (List.mem_range.mpr inRange)
  rw [List.getElem?_eq_getElem inRange, Option.any_some, decide_eq_true_eq] at kept
  simpa using kept

/-- Only a column is renumbered to a column. -/
theorem remapColumns_column {boundary : List (Option Nat)} {expression : Expression} {name : String}
    {place : Nat} {type : DataType} (ran : remapColumns boundary expression = .ok (.column name place type)) :
    ∃ index, copiedColumn expression = some index ∧ lookUp boundary index = some place := by
  cases expression with
  | column name' index type' =>
    simp only [remapColumns, remapColumnsVia, bind_eq_ok, pure_eq_ok] at ran
    obtain ⟨place', found, same⟩ := ran
    obtain ⟨-, rfl, -⟩ := Expression.column.inj same
    exact ⟨index, rfl, resolveColumn_eq_ok found⟩
  | _ =>
    simp only [remapColumns, remapColumnsVia, bind_eq_ok, pure_eq_ok, reduceCtorEq, and_false,
      exists_false] at ran

theorem remapNamed_item {boundary : List (Option Nat)} {items items' : List NamedExpression}
    (ran : remapNamed boundary items = .ok items') {position : Nat} {item item' : NamedExpression}
    (found : items[position]? = some item) (found' : items'[position]? = some item') :
    remapColumns boundary item.expr = .ok item'.expr := by
  induction items generalizing items' position with
  | nil => cases found
  | cons first items hypothesis =>
    obtain ⟨expr, rest, exprRan, restRan, rfl⟩ := remapNamed_cons ran
    cases position with
    | zero =>
      obtain rfl := Option.some.inj found
      obtain rfl := Option.some.inj found'
      exact exprRan
    | succ position => exact hypothesis restRan found found'

/-- The items of a projection that is left out are the delivered columns of its input. -/
theorem elides_of_identity (layout : Layout files stored child child' placed)
    (anchoredHere : (!referencesScanSchema child || searchable files child) = true)
    {items items' : List NamedExpression}
    (ran : remapItemsFor (boundaryFor child child') items = .ok items')
    (identity : isIdentityProjection items' child'.outputSchema = true) :
    items.map (fun item => copiedColumn item.expr) = placed.map some ∧
      items.map NamedExpression.name = placed.map (columnName child.outputSchema) := by
  refine ⟨?_, by rw [← names_remapItemsFor ran, isIdentityProjection_names identity, layout.named]⟩
  have sameLength : items.length = placed.length := by
    rw [← length_remapItemsFor ran, isIdentityProjection_length identity]
    exact layout.width
  refine List.ext_getElem (by simp [sameLength]) (fun position inItems inPlaces => ?_)
  have inRange : position < items.length := by simpa using inItems
  have inPlaced : position < placed.length := by simpa using inPlaces
  have inRange' : position < items'.length := by rwa [length_remapItemsFor ran]
  obtain ⟨⟨name, type, shape⟩, -⟩ := isIdentityProjection_item identity (List.getElem?_eq_getElem inRange')
  rw [List.getElem_map, List.getElem_map]
  cases references : referencesScanSchema child with
  | false =>
    simp only [boundaryFor, references, Bool.false_eq_true, if_false] at ran
    obtain rfl : items = items' := pure_eq_ok.mp ran
    have ownNumbering := layout.own references
    subst ownNumbering
    simp [shape, copiedColumn]
  | true =>
    rw [references] at anchoredHere
    have located := layout.located (by simpa using anchoredHere)
    simp only [boundaryFor, references, if_true] at ran
    have itemRan := remapNamed_item ran (List.getElem?_eq_getElem inRange) (List.getElem?_eq_getElem inRange')
    rw [shape] at itemRan
    obtain ⟨index, copied, found⟩ := remapColumns_column itemRan
    have put := located _ _ found
    rw [List.getElem?_eq_getElem inPlaced] at put
    rw [copied, put]

theorem layout_elided (layout : Layout files stored child child' (places files child))
    (anchoredHere : (!referencesScanSchema child || searchable files child) = true)
    {items items' : List NamedExpression}
    (ran : remapItemsFor (boundaryFor child child') items = .ok items')
    (identity : isIdentityProjection items' child'.outputSchema = true) :
    Layout files stored (.projection child items) child'
      (List.range (LogicalPlan.projection child items).width) := by
  have planWidth : (LogicalPlan.projection child items).width = items.length := by
    simp [LogicalPlan.width, LogicalPlan.outputSchema, namedFields]
  obtain ⟨copied, sameNames⟩ := elides_of_identity layout anchoredHere ran identity
  have isElided : elides files child items = true := by
    simp [elides, copied, sameNames]
  have copies {input : List Row} (returned : Returns (scanned files stored) child input) :
      input.map (pick (places files child)) =
        (input.map (projectRow items)).map (pick (List.range items.length)) := by
    have own : (input.map (projectRow items)).map (pick (List.range items.length)) =
        input.map (projectRow items) := by
      refine map_eq_self (fun row member => ?_)
      obtain ⟨source, _, rfl⟩ := List.mem_map.mp member
      exact projectRow_self items source
    rw [own, ← projectRows_for layout anchoredHere ran returned]
    refine (map_eq_self (fun row member => projectRow_identity identity ?_)).symm
    obtain ⟨source, _, rfl⟩ := List.mem_map.mp member
    simpa [pick, PhysicalPlan.width] using layout.width.symm
  rw [planWidth]
  refine
    { named := ?_
      expected := layout.expected
      within := by simp [planWidth]
      delivers := fun result => ?_
      own := fun _ => by rw [planWidth]
      located := fun search => ?_
      covered := fun close => ?_ }
  · have ownNames := columnName_range (LogicalPlan.projection child items).outputSchema
    rw [show (LogicalPlan.projection child items).outputSchema.length = items.length from planWidth,
      LogicalPlan.outputSchema, names_namedFields] at ownNames
    rw [layout.named, ← sameNames]
    exact ownNames.symm
  · rw [layout.delivers]
    constructor
    · rintro ⟨input, returned, rfl⟩
      exact ⟨_, ⟨input, returned, rfl⟩, copies returned⟩
    · rintro ⟨original, ⟨input, returned, rfl⟩, rfl⟩
      exact ⟨input, returned, (copies returned).symm⟩
  · simp only [searchable, isElided, Bool.not_true, Bool.false_or, Bool.and_eq_true] at search
    -- The delivered columns are then the input's first columns, which the map of the input locates.
    have placesRange : places files child = List.range items.length :=
      List.map_injective_iff.mpr (Option.some_injective _) (copied.symm.trans (keepsPositions_copied search.1))
    rw [← placesRange]
    exact layout.located search.2
  · simp only [closed, isElided, Bool.not_true, Bool.false_or, Bool.and_eq_true, decide_eq_true_eq] at close
    rw [layout.covered close.2, planWidth, close.1]

/-! ## Scans -/

theorem keptColumns_within (source : LogicalScan) : ∀ index ∈ keptColumns source, index < source.schema.length := by
  intro index member
  unfold keptColumns at member
  split at member
  · rename_i noneRequired
    simp only [Bool.and_eq_true, Bool.not_eq_true'] at noneRequired
    obtain rfl := List.mem_singleton.mp member
    refine List.length_pos_iff.mpr (fun empty => ?_)
    simp [empty] at noneRequired
  · exact List.mem_range.mp (List.mem_of_mem_filter member)

theorem names_keptColumns {schema : Schema} {columns : List Nat}
    (within : ∀ index ∈ columns, index < schema.length) :
    (columns.filterMap (fun index => schema[index]?)).map Field.name = columns.map (columnName schema) := by
  induction columns with
  | nil => rfl
  | cons index columns hypothesis =>
    have inSchema := within index (List.mem_cons_self ..)
    rw [List.filterMap_cons_some (List.getElem?_eq_getElem inSchema), List.map_cons, List.map_cons,
      hypothesis (fun other member => within other (List.mem_cons_of_mem _ member))]
    simp [columnName, inSchema]

theorem layout_scan (source : LogicalScan) :
    Layout files stored (.scan source) (.parquetScan (convertScan files source)) (keptColumns source) where
  named := names_keptColumns (keptColumns_within source)
  expected := rfl
  within := keptColumns_within source
  delivers result := by
    constructor
    · intro delivered
      exact ⟨_, rfl, delivered⟩
    · rintro ⟨original, rfl, rfl⟩
      rfl
  own references := by cases references
  located _ := by
    intro index place found
    simp only [convertScan, findScanBoundary, lookUp, List.getElem?_map] at found
    cases inRange : (List.range source.schema.length)[index]? with
    | none =>
      rw [inRange] at found
      cases found
    | some position =>
      obtain ⟨_, isIndex⟩ := List.getElem?_eq_some_iff.mp inRange
      simp only [List.getElem_range] at isIndex
      subst isIndex
      rw [inRange] at found
      obtain ⟨bound, isHere, _⟩ := List.findIdx?_eq_some_iff_getElem.mp found
      rw [List.getElem?_eq_getElem bound]
      exact congrArg some (beq_iff_eq.mp isHere)
  covered _ := by
    simp [convertScan, findScanBoundary, LogicalPlan.width, LogicalPlan.outputSchema]

end Operators

end KernelLake.Layouts
