import KernelLake.PartitionedScans

/-!
What the conversion of a partitioned scan keeps.

The partition columns stay in step with the values of every file, and the column map follows every required
column. Rows are lost exactly when every required column is a partition column: then no column is read, and
the chunks of a reader that reads no column have no rows to append constants to.
-/

namespace KernelLake.PartitionedScanProofs

open KernelLake.Types KernelLake.Expressions KernelLake.Evaluation KernelLake.LogicalPlans
open KernelLake.PhysicalPlans KernelLake.Pruning KernelLake.PartitionedScans
open KernelLake.PhysicalPlanner (lookUp requiredPositions keptColumns scanFragments keptPartitionColumns)

/-! ## Narrowing -/

def isFileField (source : LogicalScan) (field : Field) : Bool :=
  (findPartition source field).isNone

/-- The required fields among the processed ones, with their positions. -/
def requiredEntries (source : LogicalScan) (entries : List (Field × Nat)) : List (Field × Nat) :=
  entries.filter (fun entry => isRequired source entry.1)

/-- What has been collected after some of the schema's fields. -/
structure Narrowed (source : LogicalScan) (entries : List (Field × Nat)) (state : Narrowing) : Prop where
  fields : state.fields = (requiredEntries source entries).map Prod.fst
  columns : state.columns = (state.fields.filter (isFileField source)).map Field.name
  partitions : state.partitions = (state.fields.filterMap (findPartition source)).map Prod.fst
  keptPartitions : state.keptPartitions = (state.fields.filterMap (findPartition source)).map Prod.snd
  width : state.columnMap.length = source.schema.length
  places : ∀ index < source.schema.length, state.columnMap[index]? =
    some ((requiredEntries source entries).findIdx? (fun entry => entry.2 = index))

theorem narrowed_start (source : LogicalScan) :
    Narrowed source [] ⟨[], [], [], [], List.replicate source.schema.length none⟩ where
  fields := rfl
  columns := rfl
  partitions := rfl
  keptPartitions := rfl
  width := List.length_replicate
  places index within := by simp [requiredEntries, within]

theorem findPartition_some {source : LogicalScan} {field : Field} {column : PartitionColumn × Nat}
    (found : findPartition source field = some column) :
    source.partitionColumns[column.2]? = some column.1 ∧ column.1.name = field.name := by
  constructor
  · exact List.mem_zipIdx_iff_getElem?.mp (List.mem_of_find?_eq_some found)
  · simpa using List.find?_some found

/-- One field more. -/
theorem narrowed_step {source : LogicalScan} {entries : List (Field × Nat)} {state : Narrowing} {field : Field}
    {index : Nat} (narrowed : Narrowed source entries state) (fresh : ∀ entry ∈ entries, entry.2 ≠ index)
    (within : index < source.schema.length) :
    Narrowed source (entries ++ [(field, index)]) (narrowField source state (field, index)) := by
  unfold narrowField
  simp only
  split
  · rename_i required
    have more : requiredEntries source (entries ++ [(field, index)]) =
        requiredEntries source entries ++ [(field, index)] := by
      simp [requiredEntries, required]
    have count : state.fields.length = (requiredEntries source entries).length := by
      rw [narrowed.fields, List.length_map]
    have placed : ∀ other < source.schema.length, (state.columnMap.set index (some state.fields.length))[other]? =
        some ((requiredEntries source entries ++ [(field, index)]).findIdx? (fun entry => entry.2 = other)) := by
      intro other otherWithin
      rw [List.findIdx?_append]
      by_cases same : index = other
      · subst same
        have absent : (requiredEntries source entries).findIdx? (fun entry => entry.2 = index) = none := by
          rw [List.findIdx?_eq_none_iff]
          intro entry member
          simpa using fresh entry (List.mem_of_mem_filter member)
        rw [List.getElem?_set_self (by rw [narrowed.width]; exact within), absent, count]
        simp
      · rw [List.getElem?_set_ne same, narrowed.places other otherWithin]
        simp [same]
    split
    · rename_i column found
      have notFile : isFileField source field = false := by simp [isFileField, found]
      constructor
      · simp only [more, List.map_append, narrowed.fields]
        rfl
      · simp only [List.filter_append, narrowed.columns, List.filter_cons, notFile]
        simp
      · simp only [narrowed.partitions, List.filterMap_append, List.map_append, List.filterMap_cons, found]
        rfl
      · simp only [narrowed.keptPartitions, List.filterMap_append, List.map_append, List.filterMap_cons, found]
        rfl
      · exact List.length_set.trans narrowed.width
      · rw [more]
        exact placed
    · rename_i absent
      have isFile : isFileField source field = true := by simp [isFileField, absent]
      constructor
      · simp only [more, List.map_append, narrowed.fields]
        rfl
      · simp only [List.filter_append, narrowed.columns, List.filter_cons, isFile]
        simp
      · simp only [narrowed.partitions, List.filterMap_append, List.map_append, List.filterMap_cons, absent]
        simp
      · simp only [narrowed.keptPartitions, List.filterMap_append, List.map_append, List.filterMap_cons, absent]
        simp
      · exact List.length_set.trans narrowed.width
      · rw [more]
        exact placed
  · rename_i notRequired
    have same : requiredEntries source (entries ++ [(field, index)]) = requiredEntries source entries := by
      simp [requiredEntries, notRequired]
    exact ⟨by rw [same]; exact narrowed.fields, narrowed.columns, narrowed.partitions, narrowed.keptPartitions,
      narrowed.width, by rw [same]; exact narrowed.places⟩

/-- All fields. -/
theorem narrowed_narrow (source : LogicalScan) : Narrowed source source.schema.zipIdx (narrow source) := by
  suffices run : ∀ (rest entries : List (Field × Nat)) (state : Narrowing), source.schema.zipIdx = entries ++ rest →
      Narrowed source entries state → Narrowed source source.schema.zipIdx (rest.foldl (narrowField source) state) from
    run source.schema.zipIdx [] _ rfl (narrowed_start source)
  intro rest
  induction rest with
  | nil =>
    intro entries state whole narrowed
    rw [whole, List.append_nil]
    exact narrowed
  | cons entry rest hypothesis =>
    intro entries state whole narrowed
    obtain ⟨field, index⟩ := entry
    have numbered (position : Nat) (other : Field × Nat) (held : source.schema.zipIdx[position]? = some other) :
        other.2 = position ∧ position < source.schema.length := by
      rw [List.getElem?_zipIdx] at held
      obtain ⟨field, isField, rfl⟩ := Option.map_eq_some_iff.mp held
      exact ⟨by simp, (List.getElem?_eq_some_iff.mp isField).1⟩
    have here : source.schema.zipIdx[entries.length]? = some (field, index) := by
      rw [whole, List.getElem?_append_right (le_refl _), Nat.sub_self]
      rfl
    obtain ⟨isHere, within⟩ := numbered _ _ here
    simp only at isHere
    apply hypothesis (entries ++ [(field, index)])
    · rw [whole, List.append_assoc]
      rfl
    · apply narrowed_step narrowed
      · intro other member
        obtain ⟨position, inside, held⟩ := List.getElem_of_mem member
        have before : source.schema.zipIdx[position]? = some other := by
          rw [whole, List.getElem?_append_left inside, List.getElem?_eq_getElem inside, held]
        have isPosition := (numbered _ _ before).1
        omega
      · omega

/-! ## Split schemas -/

/-- The schema of a table consists of the fields of its files, of which there is at least one, and then of its
partition columns, whose names the files do not use. -/
structure SplitSchema (source : LogicalScan) (fileFields : Schema) : Prop where
  schema : source.schema =
    fileFields ++ source.partitionColumns.map (fun column => ⟨column.name, column.type⟩)
  nonempty : fileFields ≠ []
  disjoint : ∀ field ∈ fileFields, ∀ column ∈ source.partitionColumns, column.name ≠ field.name

section Split

variable {source : LogicalScan} {fileFields : Schema}

theorem SplitSchema.fileField (split : SplitSchema source fileFields) :
    ∀ field ∈ fileFields, isFileField source field = true := by
  intro field member
  rw [isFileField, Option.isNone_iff_eq_none, findPartition, List.find?_eq_none]
  intro entry inPartitions
  have inColumns : entry.1 ∈ source.partitionColumns := by
    obtain ⟨within, held⟩ := List.getElem?_eq_some_iff.mp (List.mem_zipIdx_iff_getElem?.mp inPartitions)
    exact held ▸ List.getElem_mem within
  simpa using split.disjoint field member entry.1 inColumns

theorem partitionField (source : LogicalScan) : ∀ column ∈ source.partitionColumns,
    isFileField source ⟨column.name, column.type⟩ = false := by
  intro column member
  rw [isFileField, Option.isNone_eq_false_iff, findPartition, List.find?_isSome]
  obtain ⟨index, within, held⟩ := List.getElem_of_mem member
  refine ⟨(column, index), List.mem_zipIdx_iff_getElem?.mpr ?_, by simp⟩
  rw [List.getElem?_eq_getElem within, held]

theorem requiredEntries_fields (source : LogicalScan) :
    (requiredEntries source source.schema.zipIdx).map Prod.fst = source.schema.filter (isRequired source) := by
  have onFields : (fun entry : Field × Nat => isRequired source entry.1) = isRequired source ∘ Prod.fst := rfl
  rw [requiredEntries, onFields, ← List.filter_map, List.zipIdx_map_fst]

theorem narrow_fields (source : LogicalScan) :
    (narrow source).fields = source.schema.filter (isRequired source) := by
  rw [(narrowed_narrow source).fields, requiredEntries_fields]

/-- The collected fields of files stand before those of partition columns. -/
theorem narrow_split (split : SplitSchema source fileFields) : ∃ fileParts partitionParts,
    (narrow source).fields = fileParts ++ partitionParts ∧
    (∀ field ∈ fileParts, isFileField source field = true) ∧
    ∀ field ∈ partitionParts, isFileField source field = false := by
  refine ⟨fileFields.filter (isRequired source), (source.partitionColumns.map
    (fun column => (⟨column.name, column.type⟩ : Field))).filter (isRequired source), ?_, ?_, ?_⟩
  · rw [narrow_fields, split.schema, List.filter_append]
  · intro field member
    exact split.fileField field (List.mem_of_mem_filter member)
  · intro field member
    obtain ⟨column, isColumn, rfl⟩ := List.mem_map.mp (List.mem_of_mem_filter member)
    exact partitionField source column isColumn

end Split

/-! ## Output rows -/

/-- The value of a field in a row of a file. -/
def fieldValue (source : LogicalScan) (file : PartitionedFile) (row : FileRow) (field : Field) : Value :=
  match findPartition source field with
  | some column => ((file.partitionValues[column.2]?).map (literalValue · column.1.type)).getD .null
  | none => row field.name

section Values

variable {source : LogicalScan}

theorem filter_of_parts {fileParts partitionParts : List Field}
    (inFiles : ∀ field ∈ fileParts, isFileField source field = true)
    (notInFiles : ∀ field ∈ partitionParts, isFileField source field = false) :
    (fileParts ++ partitionParts).filter (isFileField source) = fileParts := by
  have none : partitionParts.filter (isFileField source) = [] := by
    rw [List.filter_eq_nil_iff]
    intro field member
    rw [notInFiles field member]
    exact Bool.false_ne_true
  rw [List.filter_append, List.filter_eq_self.mpr inFiles, none, List.append_nil]

theorem filterMap_of_parts {fileParts : List Field} (partitionParts : List Field)
    (inFiles : ∀ field ∈ fileParts, isFileField source field = true) :
    (fileParts ++ partitionParts).filterMap (findPartition source) =
      partitionParts.filterMap (findPartition source) := by
  have none : fileParts.filterMap (findPartition source) = [] := by
    rw [List.filterMap_eq_nil_iff]
    intro field member
    exact Option.isNone_iff_eq_none.mp (inFiles field member)
  rw [List.filterMap_append, none, List.nil_append]

theorem found_names {fields : List Field} (notInFiles : ∀ field ∈ fields, isFileField source field = false) :
    ((fields.filterMap (findPartition source)).map Prod.fst).map PartitionColumn.name = fields.map Field.name := by
  induction fields with
  | nil => rfl
  | cons field fields hypothesis =>
    obtain ⟨column, found⟩ := Option.isSome_iff_exists.mp
      (Option.isNone_eq_false_iff.mp (notInFiles field (List.mem_cons_self ..)))
    rw [List.filterMap_cons, found]
    simp only [List.map_cons]
    rw [hypothesis (fun other member => notInFiles other (List.mem_cons_of_mem _ member)),
      (findPartition_some found).2]

/-- The constants of partition columns are the values of their fields. -/
theorem found_values {fields : List Field} (file : PartitionedFile) (row : FileRow)
    (parallel : file.partitionValues.length = source.partitionColumns.length)
    (notInFiles : ∀ field ∈ fields, isFileField source field = false) :
    (((((fields.filterMap (findPartition source)).map Prod.snd).filterMap (file.partitionValues[·]?)).zip
      ((fields.filterMap (findPartition source)).map Prod.fst)).map
        (fun pair => literalValue pair.1 pair.2.type)) = fields.map (fieldValue source file row) := by
  induction fields with
  | nil => rfl
  | cons field fields hypothesis =>
    obtain ⟨column, found⟩ := Option.isSome_iff_exists.mp
      (Option.isNone_eq_false_iff.mp (notInFiles field (List.mem_cons_self ..)))
    obtain ⟨within, _⟩ := List.getElem?_eq_some_iff.mp (findPartition_some found).1
    rw [← parallel] at within
    have here : fieldValue source file row field =
        literalValue (file.partitionValues.get ⟨column.2, within⟩) column.1.type := by
      simp [fieldValue, found, within]
    rw [List.filterMap_cons, found]
    simp only [List.map_cons]
    rw [List.filterMap_cons, List.getElem?_eq_getElem within]
    simp only [List.zip_cons_cons, List.map_cons]
    rw [hypothesis (fun other member => notInFiles other (List.mem_cons_of_mem _ member)), here]
    rfl

end Values

/-! ## Conversion -/

/-- A column is read if a required one is in the files, or if none is required at all. -/
def ReadsColumn (source : LogicalScan) : Prop :=
  (∃ field ∈ source.schema, isRequired source field = true ∧ isFileField source field = true) ∨
    ∀ field ∈ source.schema, isRequired source field = false

section Conversion

variable {source : LogicalScan} {fileFields : Schema}

theorem narrow_columns_nil : (narrow source).columns = [] ↔
    ∀ field ∈ source.schema, isRequired source field = true → isFileField source field = false := by
  rw [(narrowed_narrow source).columns, List.map_eq_nil_iff, List.filter_eq_nil_iff, narrow_fields]
  simp only [List.mem_filter, and_imp, Bool.not_eq_true]

theorem narrow_partitions_nil : (narrow source).partitions = [] ↔
    ∀ field ∈ source.schema, isRequired source field = true → isFileField source field = true := by
  rw [(narrowed_narrow source).partitions, List.map_eq_nil_iff, List.filterMap_eq_nil_iff, narrow_fields]
  simp only [List.mem_filter, and_imp, isFileField, Option.isNone_iff_eq_none]

/-- The first field stands in where no field is required, and only there. -/
theorem keepRowCount_cases (split : SplitSchema source fileFields) :
    (∃ fallback rest, source.schema = fallback :: rest ∧ (∀ field ∈ source.schema, isRequired source field = false) ∧
      (narrow source).fields = [] ∧ (narrow source).partitions = [] ∧
      keepRowCount source (narrow source) =
        { narrow source with
          columnMap := (narrow source).columnMap.set 0 (some 0)
          fields := [fallback]
          columns := [fallback.name] }) ∨
    ((∃ field ∈ source.schema, isRequired source field = true) ∧
      keepRowCount source (narrow source) = narrow source) := by
  cases schemaEq : source.schema with
  | nil =>
    have empty := split.schema
    rw [schemaEq] at empty
    exact absurd (List.append_eq_nil_iff.mp empty.symm).1 split.nonempty
  | cons fallback rest =>
    by_cases someRequired : ∃ field ∈ source.schema, isRequired source field = true
    · obtain ⟨field, member, required⟩ := someRequired
      refine .inr ⟨⟨field, schemaEq ▸ member, required⟩, ?_⟩
      have kept : ((narrow source).columns.isEmpty && (narrow source).partitions.isEmpty) = false := by
        rw [Bool.and_eq_false_iff]
        cases isFile : isFileField source field with
        | true =>
          refine .inl (Bool.eq_false_iff.mpr (fun empty => ?_))
          have none := narrow_columns_nil.mp (List.isEmpty_iff.mp empty) field member required
          rw [isFile] at none
          cases none
        | false =>
          refine .inr (Bool.eq_false_iff.mpr (fun empty => ?_))
          have none := narrow_partitions_nil.mp (List.isEmpty_iff.mp empty) field member required
          rw [isFile] at none
          cases none
      simp [keepRowCount, schemaEq, kept]
    · have noneRequired : ∀ field ∈ source.schema, isRequired source field = false := by
        intro field member
        exact Bool.eq_false_iff.mpr (fun required => someRequired ⟨field, member, required⟩)
      have fields : (narrow source).fields = [] := by
        rw [narrow_fields, List.filter_eq_nil_iff]
        intro field member
        rw [noneRequired field member]
        exact Bool.false_ne_true
      have columns : (narrow source).columns = [] := by rw [(narrowed_narrow source).columns, fields]; rfl
      have partitions : (narrow source).partitions = [] := by
        rw [(narrowed_narrow source).partitions, fields]
        rfl
      refine .inl ⟨fallback, rest, rfl, schemaEq ▸ noneRequired, fields, partitions, ?_⟩
      simp [keepRowCount, schemaEq, columns, partitions, fields]

/-- Columns are read exactly where `ReadsColumn` says so. -/
theorem convertScan_columns (split : SplitSchema source fileFields) (files : List PartitionedFile) :
    (convertScan source files).columns ≠ [] ↔ ReadsColumn source := by
  rcases keepRowCount_cases split with ⟨fallback, rest, _, noneRequired, _, _, kept⟩ | ⟨⟨field, member, required⟩, kept⟩
  · simp only [convertScan, kept]
    exact iff_of_true (List.cons_ne_nil _ _) (.inr noneRequired)
  · simp only [convertScan, kept]
    rw [Ne, narrow_columns_nil, ReadsColumn]
    push Not
    constructor
    · rintro ⟨field, member, required, isFile⟩
      exact .inl ⟨field, member, required, Bool.not_eq_false _ ▸ isFile⟩
    · rintro (⟨field, member, required, isFile⟩ | noneRequired)
      · exact ⟨field, member, required, by simp [isFile]⟩
      · rw [noneRequired field member] at required
        cases required

/-- The columns of a batch, read and appended, are those of the scan's schema. -/
theorem convertScan_ordered (split : SplitSchema source fileFields) (files : List PartitionedFile) :
    (convertScan source files).columns ++ (convertScan source files).partitionColumns.map PartitionColumn.name =
      (convertScan source files).schema.map Field.name := by
  rcases keepRowCount_cases split with ⟨fallback, rest, _, _, _, partitions, kept⟩ | ⟨_, kept⟩
  · simp [convertScan, kept, partitions]
  · have narrowed := narrowed_narrow source
    obtain ⟨fileParts, partitionParts, fields, inFiles, notInFiles⟩ := narrow_split split
    simp only [convertScan, kept]
    rw [narrowed.columns, narrowed.partitions, fields, filter_of_parts inFiles notInFiles,
      filterMap_of_parts _ inFiles, found_names notInFiles, List.map_append]

/-- The column map follows every required column. -/
theorem convertScan_places (split : SplitSchema source fileFields) (files : List PartitionedFile) {index : Nat}
    {field : Field} (held : source.schema[index]? = some field) (required : isRequired source field = true) :
    ∃ place, lookUp (convertScan source files).originalColumnMap index = some place ∧
      (convertScan source files).schema[place]? = some field := by
  have narrowed := narrowed_narrow source
  obtain ⟨within, _⟩ := List.getElem?_eq_some_iff.mp held
  rcases keepRowCount_cases split with ⟨_, _, _, noneRequired, _⟩ | ⟨_, kept⟩
  · rw [noneRequired field (List.mem_of_getElem? held)] at required
    cases required
  · have entry : (field, index) ∈ requiredEntries source source.schema.zipIdx :=
      List.mem_filter.mpr ⟨List.mem_zipIdx_iff_getElem?.mpr held, required⟩
    cases found : (requiredEntries source source.schema.zipIdx).findIdx? (fun entry => entry.2 = index) with
    | none =>
      have absent := List.findIdx?_eq_none_iff.mp found _ entry
      simp at absent
    | some place =>
      obtain ⟨inside, isIndex, _⟩ := List.findIdx?_eq_some_iff_getElem.mp found
      refine ⟨place, ?_, ?_⟩
      · simp only [convertScan, kept, lookUp, narrowed.places index within, found]
        rfl
      · simp only [convertScan, kept, narrowed.fields, List.getElem?_map, List.getElem?_eq_getElem inside]
        have member := List.mem_of_mem_filter (List.getElem_mem inside)
        have same := List.mem_zipIdx_iff_getElem?.mp member
        rw [of_decide_eq_true isIndex, held] at same
        exact same.symm

/-- A file's value of one of the table's partition columns. -/
def ValueOf (source : LogicalScan) (file : PartitionedFile) (column : PartitionColumn) (value : LiteralStorage) :
    Prop :=
  ∃ index : Nat, source.partitionColumns[index]? = some column ∧ file.partitionValues[index]? = some value

theorem kept_in_step {file : PartitionedFile}
    (parallel : file.partitionValues.length = source.partitionColumns.length) (fields : List Field) :
    List.Forall₂ (ValueOf source file) ((fields.filterMap (findPartition source)).map Prod.fst)
      (((fields.filterMap (findPartition source)).map Prod.snd).filterMap (file.partitionValues[·]?)) := by
  induction fields with
  | nil => exact .nil
  | cons field fields hypothesis =>
    rw [List.filterMap_cons]
    split
    · exact hypothesis
    · rename_i column found
      have held := (findPartition_some found).1
      obtain ⟨within, _⟩ := List.getElem?_eq_some_iff.mp held
      rw [← parallel] at within
      simp only [List.map_cons]
      rw [List.filterMap_cons, List.getElem?_eq_getElem within]
      exact .cons ⟨column.2, held, List.getElem?_eq_getElem within⟩ hypothesis

theorem convertScan_partitions (split : SplitSchema source fileFields) (files : List PartitionedFile) :
    (convertScan source files).partitionColumns = (narrow source).partitions := by
  rcases keepRowCount_cases split with ⟨_, _, _, _, _, _, kept⟩ | ⟨_, kept⟩ <;> simp only [convertScan, kept]

/-- Every fragment has, for each kept partition column, its file's value of that column. -/
theorem convertScan_lockstep (split : SplitSchema source fileFields) {files : List PartitionedFile}
    (parallel : ∀ file ∈ files, file.partitionValues.length = source.partitionColumns.length) :
    ∀ fragment ∈ (convertScan source files).fragments, ∃ file ∈ files, fragment.path = file.metadata.path ∧
      List.Forall₂ (ValueOf source file) (convertScan source files).partitionColumns
        fragment.partitionValues := by
  intro fragment member
  obtain ⟨file, isFile, built⟩ := List.mem_filterMap.mp member
  simp only [partitionedFragment] at built
  split at built
  · cases built
  · obtain rfl := Option.some.inj built
    refine ⟨file, isFile, rfl, ?_⟩
    rw [convertScan_partitions split, (narrowed_narrow source).partitions, (narrowed_narrow source).keptPartitions]
    exact kept_in_step (parallel file isFile) (narrow source).fields

/-! ## The planner's scans -/

theorem requiredPositions_eq (source : LogicalScan) :
    requiredPositions source = (requiredEntries source source.schema.zipIdx).map Prod.snd := by
  have sameTest : requiredEntries source source.schema.zipIdx = source.schema.zipIdx.filter
      ((fun index => (source.schema[index]?).any (isRequired source)) ∘ Prod.snd) := by
    apply List.filter_congr
    intro entry member
    rw [Function.comp_apply, List.mem_zipIdx_iff_getElem?.mp member]
    rfl
  rw [sameTest, ← List.filter_map, List.zipIdx_map_snd, ← List.range_eq_range']
  rfl

theorem requiredPositions_fields (source : LogicalScan) :
    (requiredPositions source).filterMap (fun index => source.schema[index]?) = (narrow source).fields := by
  rw [requiredPositions_eq, (narrowed_narrow source).fields, List.filterMap_map, ← List.filterMap_eq_map]
  apply List.filterMap_congr
  intro entry member
  exact List.mem_zipIdx_iff_getElem?.mp (List.mem_of_mem_filter member)

theorem keptPartitionColumns_eq (source : LogicalScan) :
    keptPartitionColumns source = (narrow source).partitions := by
  have found (field : Field) : source.partitionColumns.find? (fun column => column.name = field.name) =
      (findPartition source field).map Prod.fst := by
    conv_lhs => rw [← List.zipIdx_map_fst 0 source.partitionColumns, List.find?_map]
    rfl
  rw [(narrowed_narrow source).partitions, ← requiredPositions_fields, List.filterMap_filterMap,
    List.map_filterMap]
  apply List.filterMap_congr
  intro index _
  cases source.schema[index]? with
  | none => rfl
  | some field => exact found field

/-- The planner's conversion is this one with columns told by position and values left out. -/
theorem convertScan_refines (split : SplitSchema source fileFields) (files : LogicalScan → List PartitionedFile) :
    PhysicalPlanner.convertScan (fun table => (files table).map PartitionedFile.toResolvedFile) source =
      { fragments := (convertScan source (files source)).fragments.map PartitionedFragment.toPhysicalFileFragment
        sourcePaths := source.sourcePaths
        tableSchema := source.schema
        columns := keptColumns source
        schema := (convertScan source (files source)).schema
        partitionColumns := (convertScan source (files source)).partitionColumns
        originalColumnMap := (convertScan source (files source)).originalColumnMap } := by
  have narrowed := narrowed_narrow source
  have fragments : scanFragments ((files source).map PartitionedFile.toResolvedFile) source.pushablePredicates =
      (convertScan source (files source)).fragments.map PartitionedFragment.toPhysicalFileFragment := by
    rw [scanFragments, convertScan, List.filterMap_map, List.map_filterMap]
    apply List.filterMap_congr
    intro file _
    simp only [Function.comp_apply, partitionedFragment]
    split <;> rfl
  have placeOf (index : Nat) (within : index < source.schema.length) :
      (narrow source).columnMap[index]? = some ((requiredPositions source).findIdx? (· == index)) := by
    rw [narrowed.places index within, requiredPositions_eq, List.findIdx?_map]
    congr 2
  have columnMap : (narrow source).columnMap =
      (List.range source.schema.length).map (fun index => (requiredPositions source).findIdx? (· == index)) := by
    apply List.ext_getElem?
    intro index
    by_cases within : index < source.schema.length
    · rw [placeOf index within]
      simp [within]
    · rw [List.getElem?_eq_none (by rw [narrowed.width]; omega), List.getElem?_eq_none (by simp; omega)]
  rcases keepRowCount_cases split with ⟨fallback, rest, schema, _, fields, _, kept⟩ | ⟨⟨field, member, required⟩, kept⟩
  · have noPosition : requiredPositions source = [] := by
      rw [narrowed.fields, List.map_eq_nil_iff] at fields
      rw [requiredPositions_eq, fields]
      rfl
    have first : keptColumns source = [0] := by simp [keptColumns, noPosition, schema]
    rw [PhysicalPlanner.convertScan, fragments, first, keptPartitionColumns_eq]
    simp only [convertScan, kept]
    congr 2
    · simp [schema]
    · rw [columnMap, noPosition, schema]
      simp [List.range_succ_eq_map]
  · have somePosition : (requiredPositions source).isEmpty = false := by
      have inFields : field ∈ (narrow source).fields := by
        rw [narrow_fields]
        exact List.mem_filter.mpr ⟨member, required⟩
      rw [narrowed.fields] at inFields
      rw [requiredPositions_eq, List.isEmpty_map, List.isEmpty_eq_false_iff]
      intro none
      rw [none] at inFields
      cases inFields
    have all : keptColumns source = requiredPositions source := by simp [keptColumns, somePosition]
    rw [PhysicalPlanner.convertScan, fragments, all, requiredPositions_fields, ← columnMap,
      keptPartitionColumns_eq]
    simp only [convertScan, kept]

end Conversion

/-! ## Batches -/

section Batches

variable (reader : ChunkedReader) (rowGroups : RowGroups)

theorem numRows_chunkTable {columns : List String} (someColumn : columns ≠ []) (chunk : List FileRow) :
    (chunkTable columns chunk).numRows = chunk.length := by
  cases columns with
  | nil => exact absurd rfl someColumn
  | cons name columns => simp [chunkTable, Table.numRows]

/-- A table without columns has no rows. -/
theorem numRows_chunkTable_nil (chunk : List FileRow) : (chunkTable [] chunk).numRows = 0 :=
  rfl

/-- The rows of a chunk with constants appended. -/
theorem rows_chunkTable {columns : List String} (someColumn : columns ≠ []) (chunk : List FileRow)
    (constants : List Value) :
    (Table.mk ((chunkTable columns chunk).columns ++ constants.map (List.replicate chunk.length))).rows =
      chunk.map (fun row => columns.map row ++ constants) := by
  have count : (Table.mk ((chunkTable columns chunk).columns ++
      constants.map (List.replicate chunk.length))).numRows = chunk.length := by
    cases columns with
    | nil => exact absurd rfl someColumn
    | cons name columns => simp [chunkTable, Table.numRows]
  rw [Table.rows, count]
  apply List.ext_getElem
  · simp
  · intro index inRange inChunk
    rw [List.length_map] at inChunk
    simp only [List.getElem_map, List.getElem_range, chunkTable, List.map_append, List.map_map]
    congr 1
    · apply List.map_congr_left
      intro name _
      simp [inChunk]
    · rw [List.map_congr_left (g := id), List.map_id]
      intro value _
      simp [inChunk]

/-- Chunks without rows are no loss. -/
theorem rows_readChunks {columns : List String} (someColumn : columns ≠ []) (rows : List FileRow)
    {shown : Table → List Row} {outputRow : FileRow → Row}
    (perChunk : ∀ chunk, shown (chunkTable columns chunk) = chunk.map outputRow) :
    (readChunks reader columns rows).flatMap shown = rows.map outputRow := by
  conv => right; rw [← reader.complete rows]
  rw [readChunks]
  induction reader.chunks rows with
  | nil => rfl
  | cons chunk chunks hypothesis =>
    rw [List.map_cons, List.filter_cons, List.flatten_cons, List.map_append, ← hypothesis]
    split
    · rw [List.flatMap_cons, perChunk]
    · rename_i empty
      rw [numRows_chunkTable someColumn] at empty
      have noRow : chunk = [] := List.eq_nil_of_length_eq_zero (by simpa using empty)
      rw [noRow]
      rfl

/-- A scan that reads a column delivers every row once. -/
theorem scanRows_of_columns {node : ParquetScanNode} (someColumn : node.columns ≠ []) :
    scanRows reader rowGroups node = node.fragments.flatMap (fun fragment =>
      (selectedRows rowGroups fragment.toPhysicalFileFragment).map
        (fun row => node.columns.map row ++ partitionConstants node fragment)) := by
  unfold scanRows scanBatches
  split
  · rename_i noPartition
    have noConstants (fragment : PartitionedFragment) : partitionConstants node fragment = [] := by
      rw [partitionConstants, List.isEmpty_iff.mp noPartition, List.zip_nil_right, List.map_nil]
    simp only [noConstants, List.append_nil]
    have perChunk (chunk : List FileRow) :
        (chunkTable node.columns chunk).rows = chunk.map (fun row => node.columns.map row) := by
      simpa using rows_chunkTable someColumn chunk []
    rw [rows_readChunks reader someColumn _ perChunk, List.map_flatMap]
  · rw [List.flatMap_assoc]
    congr 1
    funext fragment
    rw [List.flatMap_map]
    apply rows_readChunks reader someColumn
    intro chunk
    rw [appendPartitions, numRows_chunkTable someColumn]
    exact rows_chunkTable someColumn chunk (partitionConstants node fragment)

/-- A scan that reads no column delivers no row. -/
theorem scanRows_of_nil {node : ParquetScanNode} (noColumn : node.columns = []) :
    scanRows reader rowGroups node = [] := by
  have noChunk (rows : List FileRow) : readChunks reader node.columns rows = [] := by
    rw [noColumn, readChunks, List.filter_eq_nil_iff]
    intro table member
    obtain ⟨chunk, _, rfl⟩ := List.mem_map.mp member
    simp [numRows_chunkTable_nil]
  simp [scanRows, scanBatches, noChunk]

end Batches

/-! ## Rows -/

/-- The rows of a file that pruning selects. -/
def chosenRows (source : LogicalScan) (rowGroups : RowGroups) (file : PartitionedFile) : List FileRow :=
  (evaluatePruning file.metadata source.pushablePredicates).selectedRowGroups.flatMap (rowGroups file.metadata.path)

section Rows

variable {source : LogicalScan} {fileFields : Schema}

/-- The columns of a fragment's rows, read and appended, are the values of the scan's fields. -/
theorem outputRow_eq (split : SplitSchema source fileFields) (files : List PartitionedFile) {file : PartitionedFile}
    (parallel : file.partitionValues.length = source.partitionColumns.length) {fragment : PartitionedFragment}
    (values : fragment.partitionValues = (narrow source).keptPartitions.filterMap (file.partitionValues[·]?))
    (row : FileRow) :
    (convertScan source files).columns.map row ++ partitionConstants (convertScan source files) fragment =
      (convertScan source files).schema.map (fieldValue source file row) := by
  have narrowed := narrowed_narrow source
  obtain ⟨fileParts, partitionParts, fields, inFiles, notInFiles⟩ := narrow_split split
  have fromFile {field : Field} (isFile : isFileField source field = true) :
      fieldValue source file row field = row field.name := by
    rw [fieldValue, Option.isNone_iff_eq_none.mp isFile]
  rw [partitionConstants, convertScan_partitions split, values]
  rcases keepRowCount_cases split with ⟨fallback, rest, schema, _, _, partitions, kept⟩ | ⟨_, kept⟩
  · have isFile : isFileField source fallback = true := by
      have whole := split.schema
      cases fileEq : fileFields with
      | nil => exact absurd fileEq split.nonempty
      | cons first others =>
        rw [fileEq, schema, List.cons_append, List.cons.injEq] at whole
        exact split.fileField fallback (by rw [fileEq, whole.1]; exact List.mem_cons_self ..)
    simp [convertScan, kept, partitions, fromFile isFile]
  · simp only [convertScan, kept]
    rw [narrowed.columns, narrowed.partitions, narrowed.keptPartitions, fields, filter_of_parts inFiles notInFiles,
      filterMap_of_parts _ inFiles, found_values file row parallel notInFiles, List.map_append]
    congr 1
    rw [List.map_map]
    apply List.map_congr_left
    intro field member
    exact (fromFile (inFiles field member)).symm

/-- What every conversion of a scan keeps: partition columns in step with values, every required column at its
place, and one row for every row of the selected row groups. -/
structure KeepsScan (source : LogicalScan) (files : List PartitionedFile) (reader : ChunkedReader)
    (rowGroups : RowGroups) (node : ParquetScanNode) : Prop where
  lockstep : ∀ fragment ∈ node.fragments, ∃ file ∈ files, fragment.path = file.metadata.path ∧
    List.Forall₂ (ValueOf source file) node.partitionColumns fragment.partitionValues
  ordered : node.columns ++ node.partitionColumns.map PartitionColumn.name = node.schema.map Field.name
  places : ∀ (index : Nat) (field : Field), source.schema[index]? = some field → isRequired source field = true →
    ∃ place, lookUp node.originalColumnMap index = some place ∧ node.schema[place]? = some field
  rows : scanRows reader rowGroups node = files.flatMap (fun file =>
    (chosenRows source rowGroups file).map (fun row => node.schema.map (fieldValue source file row)))

/-- The rows of a conversion that reads a column. -/
theorem scanRows_convertScan (split : SplitSchema source fileFields) {files : List PartitionedFile}
    (parallel : ∀ file ∈ files, file.partitionValues.length = source.partitionColumns.length)
    (reader : ChunkedReader) (rowGroups : RowGroups) (someColumn : (convertScan source files).columns ≠ []) :
    scanRows reader rowGroups (convertScan source files) = files.flatMap (fun file =>
      (chosenRows source rowGroups file).map
        (fun row => (convertScan source files).schema.map (fieldValue source file row))) := by
  rw [scanRows_of_columns reader rowGroups someColumn]
  have outputs (file : PartitionedFile) (isFile : file ∈ files) (fragment : PartitionedFragment)
      (values : fragment.partitionValues = (narrow source).keptPartitions.filterMap (file.partitionValues[·]?)) :=
    outputRow_eq split files (parallel file isFile) values
  generalize hnode : convertScan source files = node at outputs
  have fragments : node.fragments = files.filterMap (partitionedFragment source (narrow source).keptPartitions) := by
    rw [← hnode]
    rfl
  rw [fragments]
  clear hnode fragments someColumn parallel
  induction files with
  | nil => rfl
  | cons file files hypothesis =>
    have rest := hypothesis (fun other member => outputs other (List.mem_cons_of_mem _ member))
    have here := outputs file (List.mem_cons_self ..)
    rw [List.filterMap_cons, List.flatMap_cons, ← rest]
    by_cases skipped : ((evaluatePruning file.metadata source.pushablePredicates).selectedRowGroups.isEmpty &&
        !file.metadata.rowGroups.isEmpty) = true
    · have noRow : chosenRows source rowGroups file = [] := by
        rw [chosenRows, List.isEmpty_iff.mp (Bool.and_eq_true_iff.mp skipped).1, List.flatMap_nil]
      simp only [partitionedFragment, skipped, if_true]
      rw [noRow, List.map_nil, List.nil_append]
    · simp only [partitionedFragment, skipped, Bool.false_eq_true, if_false]
      rw [List.flatMap_cons]
      congr 1
      apply List.map_congr_left
      intro row _
      exact here _ rfl row

/-- Conversion keeps the scan exactly if a column is read or no row is selected. -/
theorem convertScan_keeps_iff (split : SplitSchema source fileFields) {files : List PartitionedFile}
    (parallel : ∀ file ∈ files, file.partitionValues.length = source.partitionColumns.length)
    (reader : ChunkedReader) (rowGroups : RowGroups) :
    KeepsScan source files reader rowGroups (convertScan source files) ↔
      ReadsColumn source ∨ ∀ file ∈ files, chosenRows source rowGroups file = [] := by
  constructor
  · intro keeps
    by_cases reads : ReadsColumn source
    · exact .inl reads
    · right
      have noColumn : (convertScan source files).columns = [] := by
        by_contra someColumn
        exact reads ((convertScan_columns split files).mp someColumn)
      have noRow := keeps.rows
      rw [scanRows_of_nil reader rowGroups noColumn] at noRow
      intro file isFile
      have noneHere := List.flatMap_eq_nil_iff.mp noRow.symm file isFile
      exact List.map_eq_nil_iff.mp noneHere
  · intro reads
    refine ⟨convertScan_lockstep split parallel, convertScan_ordered split files,
      fun index field held required => convertScan_places split files held required, ?_⟩
    by_cases someColumn : (convertScan source files).columns ≠ []
    · exact scanRows_convertScan split parallel reader rowGroups someColumn
    · rw [scanRows_of_nil reader rowGroups (not_not.mp someColumn)]
      rcases reads with reads | noRow
      · exact absurd ((convertScan_columns split files).mpr reads) someColumn
      · symm
        rw [List.flatMap_eq_nil_iff]
        intro file isFile
        rw [noRow file isFile, List.map_nil]

end Rows

/-- Sales, one directory for each region. -/
def salesScan (requiredColumns : List String) : LogicalScan where
  sourcePaths := ["sales/**"]
  schema := [⟨"id", int64Type⟩, ⟨"region", stringType⟩]
  requiredColumns := requiredColumns
  partitionColumns := [⟨"region", stringType⟩]

def salesFile : PartitionedFile where
  metadata := ⟨"sales/region=north/a.parquet", [⟨0, 2, []⟩], rfl⟩
  rowCount := 2
  partitionValues := [.string "north"]

def salesRows : RowGroups := fun _ _ => [fun _ => .int 1, fun _ => .int 2]

/-- A reader that delivers every file in one chunk. -/
def wholeReader : ChunkedReader where
  chunks := fun rows => [rows]
  complete rows := List.append_nil rows

theorem salesScan_split (requiredColumns : List String) :
    SplitSchema (salesScan requiredColumns) [⟨"id", int64Type⟩] where
  schema := rfl
  nonempty := List.cons_ne_nil _ _
  disjoint := by simp [salesScan]

theorem convertScan_keeps_sales :
    KeepsScan (salesScan ["id", "region"]) [salesFile] wholeReader salesRows
      (convertScan (salesScan ["id", "region"]) [salesFile]) := by
  apply (convertScan_keeps_iff (salesScan_split ["id", "region"]) (by decide) wholeReader salesRows).mpr
  exact .inl (.inl ⟨⟨"id", int64Type⟩, by decide, by decide, by decide⟩)

/-- Only the region is asked for, and the two rows of the file are lost. -/
theorem convertScan_loses_sales :
    (chosenRows (salesScan ["region"]) salesRows salesFile).length = 2 ∧
    scanRows wholeReader salesRows (convertScan (salesScan ["region"]) [salesFile]) = [] ∧
    ¬ KeepsScan (salesScan ["region"]) [salesFile] wholeReader salesRows
      (convertScan (salesScan ["region"]) [salesFile]) := by
  have noRow : scanRows wholeReader salesRows (convertScan (salesScan ["region"]) [salesFile]) = [] :=
    scanRows_of_nil wholeReader salesRows rfl
  refine ⟨rfl, noRow, ?_⟩
  intro keeps
  have lost := keeps.rows.symm.trans noRow
  have someRow : chosenRows (salesScan ["region"]) salesRows salesFile ≠ [] := List.cons_ne_nil _ _
  exact someRow (List.map_eq_nil_iff.mp (List.flatMap_eq_nil_iff.mp lost salesFile (List.mem_singleton_self _)))

end KernelLake.PartitionedScanProofs
