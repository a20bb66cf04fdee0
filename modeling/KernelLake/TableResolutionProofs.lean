import KernelLake.Library.Results
import KernelLake.TableResolution
import Mathlib.Data.List.Nodup

/-!
Tables that are resolved.

The keys and values of a file are those of the directories right above it, outermost first. The columns of a
table have distinct names unless the files or the directories of one file repeat a name.
-/

namespace KernelLake.TableResolution

open KernelLake.Types KernelLake.Expressions KernelLake.PartitionValues KernelLake.Library.Results
open KernelLake.Library.Texts

/-! ## Directories -/

/-- The names between the slashes of a path. -/
def names (path : String) : List (List Char) :=
  (path.toList.splitOn '/').filter (· ≠ [])

/-- The key of a partition: an identifier. -/
def IsKey (key : List Char) : Prop :=
  key ≠ [] ∧ (key.headD '0').isDigit = false ∧ ∀ character ∈ key, isKeyCharacter character = true

/-- The name of a directory for a key and its value. -/
def directoryName (pair : KeyValue) : List Char :=
  pair.1 ++ '=' :: pair.2

/-- The directories right above a file that are named after keys and values, outermost first. -/
def PartitionedBy (path : String) (pairs : List KeyValue) : Prop :=
  ∃ outer, (names path).dropLast = outer ++ pairs.map directoryName ∧ (∀ pair ∈ pairs, IsKey pair.1) ∧
    ∀ last ∈ outer.getLast?, ∀ pair, IsKey pair.1 → last ≠ directoryName pair

theorem splitPathSegments_fold (path : List Char) (finished : List (List Char)) {current : List Char}
    (noSlash : '/' ∉ current) :
    (let state := path.foldl splitStep (finished, current)
      if state.2 = [] then state.1 else state.1 ++ [state.2]) =
      finished ++ ((current ++ path).splitOn '/').filter (· ≠ []) := by
  induction path generalizing finished current with
  | nil =>
    rw [List.append_nil, List.splitOn_eq_singleton noSlash]
    by_cases empty : current = []
    · simp [empty]
    · simp [empty]
  | cons character rest ih =>
    rw [List.foldl_cons]
    by_cases slash : character = '/'
    · subst slash
      rw [splitStep, if_pos rfl, ih _ (by simp), List.splitOn_append_cons_self, List.splitOn_eq_singleton noSlash]
      by_cases empty : current = []
      · simp [empty]
      · simp [empty]
    · rw [splitStep, if_neg slash, ih _ (by simp [noSlash, Ne.symm slash])]
      simp

theorem splitPathSegments_eq (path : String) : splitPathSegments path.toList = names path := by
  have folded := splitPathSegments_fold path.toList [] (show '/' ∉ ([] : List Char) by simp)
  simpa [splitPathSegments, names] using folded

theorem not_isKeyCharacter : isKeyCharacter '=' = false := by
  decide

theorem takeWhile_directoryName {pair : KeyValue} (isKey : IsKey pair.1) :
    (directoryName pair).takeWhile (· ≠ '=') = pair.1 := by
  have noEquals : ∀ character ∈ pair.1, decide (character ≠ '=') = true := by
    intro character member
    rw [decide_eq_true_eq]
    rintro rfl
    have isCharacter := isKey.2.2 _ member
    rw [not_isKeyCharacter] at isCharacter
    cases isCharacter
  rw [directoryName, List.takeWhile_append_of_pos noEquals]
  simp

theorem parseKeyValueSegment_name {pair : KeyValue} (isKey : IsKey pair.1) :
    parseKeyValueSegment (directoryName pair) = some pair := by
  obtain ⟨nonempty, notDigit, characters⟩ := isKey
  unfold parseKeyValueSegment
  rw [takeWhile_directoryName ⟨nonempty, notDigit, characters⟩]
  have longer : ¬ (pair.1.length = (directoryName pair).length ∨ pair.1 = []) := by
    simp [directoryName, nonempty]
  have value : (directoryName pair).drop (pair.1.length + 1) = pair.2 := by
    simp [directoryName]
  simp only [longer, if_false, notDigit, Bool.false_eq_true, value]
  rw [if_pos (List.all_eq_true.2 characters)]

theorem parseKeyValueSegment_some {segment : List Char} {pair : KeyValue} :
    parseKeyValueSegment segment = some pair ↔ IsKey pair.1 ∧ segment = directoryName pair := by
  constructor
  · intro parsed
    unfold parseKeyValueSegment at parsed
    simp only at parsed
    split at parsed
    · cases parsed
    rename_i longer
    split at parsed
    · cases parsed
    rename_i notDigit
    split at parsed
    · rename_i characters
      obtain rfl := Option.some.inj parsed
      simp only [not_or] at longer
      refine ⟨⟨longer.2, Bool.eq_false_iff.2 notDigit, List.all_eq_true.1 characters⟩, ?_⟩
      have parts := List.takeWhile_append_dropWhile (p := fun character => decide (character ≠ '=')) (l := segment)
      cases remaining : segment.dropWhile (fun character => decide (character ≠ '=')) with
      | nil =>
        rw [remaining, List.append_nil] at parts
        exact absurd (congrArg List.length parts) longer.1
      | cons first rest =>
        have isEquals : first = '=' := by
          have fails := List.head?_dropWhile_not (fun character => decide (character ≠ '=')) segment
          rw [remaining] at fails
          simpa using fails
        rw [remaining, isEquals] at parts
        have value {key : List Char} (same : key ++ '=' :: rest = segment) :
            segment.drop (key.length + 1) = rest := by
          rw [← same]
          simp
        rw [directoryName, value parts, parts]
    · cases parsed
  · rintro ⟨isKey, rfl⟩
    exact parseKeyValueSegment_name isKey

/-- The pairs that are parsed are those of the longest run of names after keys and values. -/
theorem parsedRun_spec (segments : List (List Char)) :
    ∃ rest, segments = (parsedRun segments).map directoryName ++ rest ∧
      (∀ pair ∈ parsedRun segments, IsKey pair.1) ∧ ∀ next ∈ rest.head?, parseKeyValueSegment next = none := by
  induction segments with
  | nil => exact ⟨[], rfl, by simp [parsedRun], by simp⟩
  | cons segment segments ih =>
    unfold parsedRun
    cases parsed : parseKeyValueSegment segment with
    | none => exact ⟨segment :: segments, rfl, by simp, by simpa using parsed⟩
    | some pair =>
      obtain ⟨isKey, rfl⟩ := parseKeyValueSegment_some.1 parsed
      obtain ⟨rest, same, areKeys, stops⟩ := ih
      refine ⟨rest, ?_, ?_, stops⟩
      · simp only [List.map_cons, List.cons_append]
        rw [← same]
      · intro other member
        rcases List.mem_cons.1 member with rfl | member
        · exact isKey
        · exact areKeys other member

theorem extractPartitionSegments_spec (path : String) : PartitionedBy path (extractPartitionSegments path) := by
  obtain ⟨rest, same, areKeys, stops⟩ := parsedRun_spec (splitPathSegments path.toList).dropLast.reverse
  rw [splitPathSegments_eq] at same areKeys
  refine ⟨rest.reverse, ?_, ?_, ?_⟩
  · rw [extractPartitionSegments, splitPathSegments_eq, List.map_reverse, ← List.reverse_append, ← same,
      List.reverse_reverse]
  · intro pair member
    rw [extractPartitionSegments, splitPathSegments_eq, List.mem_reverse] at member
    exact areKeys pair member
  · intro last isLast pair isKey named
    rw [List.getLast?_reverse] at isLast
    have refused := stops last isLast
    rw [named, parseKeyValueSegment_name isKey] at refused
    cases refused

/-! ## Values -/

theorem looksLikeInt64_iff {value : List Char} : looksLikeInt64 value = true ↔ IsNumeral value := by
  have digits (text : List Char) : (!text.isEmpty && text.all Char.isDigit) = true ↔ AreDigits text := by
    simp [AreDigits]
  unfold looksLikeInt64
  simp only [digits]
  constructor
  · intro areDigits
    split at areDigits
    · rename_i signed
      obtain ⟨rest, rfl⟩ := List.head?_eq_some_iff.1 signed
      exact ⟨rest, .inr rfl, areDigits⟩
    · exact ⟨value, .inl rfl, areDigits⟩
  · rintro ⟨rest, rfl | rfl, areDigits⟩
    · rw [if_neg]
      · exact areDigits
      · intro signed
        obtain ⟨others, rfl⟩ := List.head?_eq_some_iff.1 signed
        exact absurd (areDigits.2 '-' List.mem_cons_self) (by decide)
    · simpa using areDigits

/-- A value of the type of its column stands for what its text denotes. -/
def Denotes (type : DataType) (text : List Char) (value : LiteralStorage) : Prop :=
  (type = int64Type false ∧ IsNumeral text ∧ ∃ number, value = .int64 number ∧ number.toInt = readInteger text) ∨
    (type = date32Type false ∧ ∃ days, IsCalendarDate text days.toInt ∧ value = .int64 days) ∨
    (type = stringType false ∧ value = .string (String.ofList text))

theorem parsePartitionValue_denotes {values : List (List Char)} {text : List Char} {value : LiteralStorage}
    (member : text ∈ values) (parsed : parsePartitionValue text (inferPartitionType values) = .ok value) :
    Denotes (inferPartitionType values) text value := by
  by_cases integers : values.all looksLikeInt64 = true
  · have type : inferPartitionType values = int64Type false := if_pos integers
    have isNumeral := looksLikeInt64_iff.1 (List.all_eq_true.1 integers text member)
    rw [type] at parsed ⊢
    simp only [parsePartitionValue, int64Type, stoll, leadingInteger_numeral isNumeral] at parsed
    left
    by_cases fits : -2 ^ 63 ≤ readInteger text ∧ readInteger text < 2 ^ 63
    · rw [if_pos fits] at parsed
      obtain rfl := Except.ok.inj parsed
      exact ⟨rfl, isNumeral, _, rfl, Int64.toInt_ofInt_of_le fits.1 fits.2⟩
    · rw [if_neg fits] at parsed
      cases parsed
  · have notInteger : inferPartitionType values =
        if values.all looksLikeIsoDate then
          if values.all (fun value => (parseIsoDate value).isOk) then date32Type false else stringType false
        else stringType false := if_neg integers
    have asText (type : inferPartitionType values = stringType false) :
        Denotes (inferPartitionType values) text value := by
      rw [type] at parsed ⊢
      exact .inr (.inr ⟨rfl, (Except.ok.inj parsed).symm⟩)
    split at notInteger
    · split at notInteger
      · rw [notInteger] at parsed ⊢
        simp only [parsePartitionValue, date32Type] at parsed
        right
        left
        refine ⟨rfl, ?_⟩
        cases read : parseIsoDate text with
        | error message =>
          rw [read] at parsed
          cases parsed
        | ok days =>
          rw [read] at parsed
          obtain rfl := Except.ok.inj parsed
          obtain ⟨number, isDate, rfl⟩ := parseIsoDate_ok.1 read
          have bounds := isCalendarDate_bounds isDate
          refine ⟨(Int32.ofInt number).toInt64, ?_, rfl⟩
          rw [Int32.toInt_toInt64, Int32.toInt_ofInt_of_le (by omega) (by omega)]
          exact isDate
      · exact asText notInteger
    · exact asText notInteger

theorem inferPartitionType_perm {values others : List (List Char)} (permuted : values.Perm others) :
    inferPartitionType values = inferPartitionType others := by
  have same (test : List Char → Bool) : values.all test = others.all test := permuted.all_eq
  simp only [inferPartitionType, same]

/-! ## Tables -/

/-- The keys of a file, as names of columns. -/
def columnNames (file : InspectedFile) : List String :=
  (extractPartitionSegments file.path).map (fun pair => String.ofList pair.1)

/-- The values of a file: one for each column, standing for the text in the directory of its key. -/
def ValuesOf (columns : List PartitionColumn) (file : InspectedFile) (resolved : ResolvedFile) : Prop :=
  resolved.metadata = file ∧ ∃ pairs, PartitionedBy file.path pairs ∧
    columns.map PartitionColumn.name = pairs.map (fun pair => String.ofList pair.1) ∧
    List.Forall₂ (fun entry value => Denotes entry.1.type entry.2.2 value) (columns.zip pairs)
      resolved.partitionValues

/-- A table that was resolved from files is well formed. -/
structure WellFormed (first : InspectedFile) (rest : List InspectedFile) (table : ResolvedTable) : Prop where
  schema : (∀ file ∈ rest, file.schema = first.schema) ∧
    table.schema = first.schema ++ table.partitionColumns.map (fun column => ⟨column.name, column.type⟩)
  distinct : (table.schema.map Field.name).Nodup
  values : List.Forall₂ (ValuesOf table.partitionColumns) (first :: rest) table.files
  /-- In whatever order the files come, they make the same columns. -/
  unordered : ∀ other others, (other :: others).Perm (first :: rest) → ∃ same,
    resolveTable other others = .ok same ∧ same.schema = table.schema ∧
      same.partitionColumns = table.partitionColumns

theorem layoutMessage_none {first file : InspectedFile} {keys : List (List Char)} :
    layoutMessage first keys file = none ↔ (extractPartitionSegments file.path).map Prod.fst = keys := by
  unfold layoutMessage
  simp only
  split
  · rename_i different
    simp only [reduceCtorEq, false_iff]
    rintro rfl
    simp at different
  · rename_i sameLength
    rw [not_not] at sameLength
    have entries : (∀ entry ∈ ((extractPartitionSegments file.path).zip keys).zipIdx, entry.1.1.1 = entry.1.2) ↔
        ∀ entry ∈ (extractPartitionSegments file.path).zip keys, entry.1.1 = entry.2 := by
      conv_rhs => rw [← List.zipIdx_map_fst 0 ((extractPartitionSegments file.path).zip keys)]
      rw [List.forall_mem_map]
    have related : (extractPartitionSegments file.path).map Prod.fst = keys ↔
        List.Forall₂ (fun pair key => pair.1 = key) (extractPartitionSegments file.path) keys := by
      rw [← List.forall₂_map_left_iff, List.forall₂_eq_eq_eq]
    rw [Option.map_eq_none_iff, List.find?_eq_none, related, List.forall₂_iff_zip]
    simp only [ne_eq, decide_not, Bool.not_eq_true', decide_eq_false_iff_not, not_not, entries, sameLength, true_and]
    exact ⟨fun same _ _ member => same _ member, fun same entry member => same member⟩

/-- What a resolution that succeeds has found. -/
theorem resolveTable_ok {first : InspectedFile} {rest : List InspectedFile} {table : ResolvedTable} :
    resolveTable first rest = .ok table ↔
      (∀ file ∈ rest, file.schema = first.schema) ∧
      (∀ file ∈ first :: rest, (extractPartitionSegments file.path).map Prod.fst =
        (extractPartitionSegments first.path).map Prod.fst) ∧
      ((extractPartitionSegments first.path).map Prod.fst).zipIdx.mapM (partitionColumn first.schema
        ((first :: rest).map (fun file => extractPartitionSegments file.path))) = .ok table.partitionColumns ∧
      (first :: rest).mapM (resolveFile table.partitionColumns) = .ok table.files ∧
      table.schema = first.schema ++ table.partitionColumns.map (fun column => ⟨column.name, column.type⟩) := by
  have validated : validateSchemaCompatibility first rest = .ok () ↔ ∀ file ∈ rest, file.schema = first.schema := by
    unfold validateSchemaCompatibility
    cases found : rest.find? (fun candidate => candidate.schema ≠ first.schema) with
    | none => simpa using found
    | some candidate =>
      have different := List.find?_some found
      simp only [reduceCtorEq, false_iff, not_forall]
      exact ⟨candidate, List.mem_of_find?_eq_some found, by simpa using different⟩
  have layouts : (first :: rest).findSome? (layoutMessage first ((extractPartitionSegments first.path).map Prod.fst)) =
      none ↔ ∀ file ∈ first :: rest, (extractPartitionSegments file.path).map Prod.fst =
        (extractPartitionSegments first.path).map Prod.fst := by
    rw [List.findSome?_eq_none_iff]
    exact forall₂_congr fun file _ => layoutMessage_none
  unfold resolveTable
  simp only
  rw [bind_eq_ok]
  constructor
  · rintro ⟨⟨⟩, isValid, resolved⟩
    split at resolved
    · cases resolved
    rename_i noMessage
    obtain ⟨columns, isColumns, resolved⟩ := bind_eq_ok.mp resolved
    obtain ⟨files, isFiles, same⟩ := bind_eq_ok.mp resolved
    obtain rfl := pure_eq_ok.mp same
    exact ⟨validated.1 isValid, layouts.1 noMessage, isColumns, isFiles, rfl⟩
  · rintro ⟨sameSchema, sameKeys, isColumns, isFiles, isSchema⟩
    refine ⟨(), validated.2 sameSchema, ?_⟩
    rw [layouts.2 sameKeys]
    refine bind_eq_ok.mpr ⟨_, isColumns, bind_eq_ok.mpr ⟨_, isFiles, ?_⟩⟩
    rw [← isSchema]
    rfl

/-- The values of all files for the key at a place. -/
def valuesAt (files : List InspectedFile) (place : Nat) : List (List Char) :=
  (files.map (fun file => extractPartitionSegments file.path)).map (fun segments => (segments.getD place ([], [])).2)

theorem partitionColumn_ok {schema : Schema} {files : List InspectedFile} {entry : List Char × Nat}
    {column : PartitionColumn}
    (isColumn : partitionColumn schema (files.map (fun file => extractPartitionSegments file.path)) entry =
      .ok column) :
    String.ofList entry.1 ∉ schema.map Field.name ∧
      column = ⟨String.ofList entry.1, inferPartitionType (valuesAt files entry.2)⟩ := by
  unfold partitionColumn at isColumn
  simp only at isColumn
  split at isColumn
  · cases isColumn
  · rename_i absent
    refine ⟨fun member => absent ?_, (Except.ok.inj isColumn).symm⟩
    obtain ⟨field, isField, same⟩ := List.mem_map.1 member
    rw [Schema.findField, List.findIdx?_isSome, List.any_eq_true]
    exact ⟨field, isField, by simp [same]⟩

theorem columns_of_keys {schema : Schema} {files : List InspectedFile} {keys : List (List Char)}
    {columns : List PartitionColumn}
    (isColumns : keys.zipIdx.mapM (partitionColumn schema
      (files.map (fun file => extractPartitionSegments file.path))) = .ok columns) :
    (∀ key ∈ keys, String.ofList key ∉ schema.map Field.name) ∧
      columns = keys.zipIdx.map (fun entry =>
        ⟨String.ofList entry.1, inferPartitionType (valuesAt files entry.2)⟩) := by
  have each := mapM_eq_ok.mp isColumns
  constructor
  · intro key member
    rw [← List.zipIdx_map_fst 0 keys, List.mem_map] at member
    obtain ⟨entry, isEntry, rfl⟩ := member
    obtain ⟨column, -, isColumn⟩ := exists_of_mem_left each isEntry
    exact (partitionColumn_ok isColumn).1
  · have same := each.imp fun entry column isColumn => (partitionColumn_ok isColumn).2.symm
    rw [← List.forall₂_map_left_iff, List.forall₂_eq_eq_eq] at same
    exact same.symm

theorem columns_names {schema : Schema} {files : List InspectedFile} {keys : List (List Char)}
    {columns : List PartitionColumn}
    (isColumns : keys.zipIdx.mapM (partitionColumn schema
      (files.map (fun file => extractPartitionSegments file.path))) = .ok columns) :
    columns.map PartitionColumn.name = keys.map String.ofList := by
  rw [(columns_of_keys isColumns).2, List.map_map]
  conv_rhs => rw [← List.zipIdx_map_fst 0 keys, List.map_map]
  rfl

/-- The file at a place has the pair of its own directory there. -/
theorem zipIdx_zip {columns : List PartitionColumn} {pairs : List KeyValue}
    (sameLength : columns.length = pairs.length) :
    columns.zipIdx.map (fun entry => (entry.1, pairs.getD entry.2 ([], []))) = columns.zip pairs := by
  apply List.ext_getElem
  · simp [sameLength]
  · intro place inMap inZip
    simp only [List.length_map, List.length_zipIdx] at inMap
    simp [List.getElem_zip, sameLength ▸ inMap]

theorem resolveFile_values {schema : Schema} {files : List InspectedFile} {keys : List (List Char)}
    {columns : List PartitionColumn} {file : InspectedFile} {resolved : ResolvedFile}
    (isColumns : keys.zipIdx.mapM (partitionColumn schema
      (files.map (fun file => extractPartitionSegments file.path))) = .ok columns)
    (member : file ∈ files) (hasKeys : (extractPartitionSegments file.path).map Prod.fst = keys)
    (isResolved : resolveFile columns file = .ok resolved) : ValuesOf columns file resolved := by
  obtain ⟨values, isValues, same⟩ := bind_eq_ok.mp isResolved
  obtain rfl := pure_eq_ok.mp same
  have names := columns_names isColumns
  rw [← hasKeys, List.map_map] at names
  have sameLength : columns.length = (extractPartitionSegments file.path).length := by
    simpa using congrArg List.length names
  refine ⟨rfl, extractPartitionSegments file.path, extractPartitionSegments_spec file.path, names, ?_⟩
  rw [← zipIdx_zip sameLength, List.forall₂_map_left_iff]
  have typed : ∀ entry ∈ columns.zipIdx, entry.1.type = inferPartitionType (valuesAt files entry.2) := by
    intro entry isEntry
    rw [List.mem_zipIdx_iff_getElem?, (columns_of_keys isColumns).2, List.getElem?_map, List.getElem?_zipIdx] at isEntry
    obtain ⟨key, isKey, same⟩ := Option.map_eq_some_iff.1 isEntry
    obtain ⟨other, -, rfl⟩ := Option.map_eq_some_iff.1 isKey
    rw [← same, Nat.zero_add]
  obtain ⟨sameCount, each⟩ := List.forall₂_iff_zip.1 (mapM_eq_ok.mp isValues)
  refine List.forall₂_iff_zip.2 ⟨sameCount, fun {entry value} inZip => ?_⟩
  have parsed := each inZip
  rw [typed entry (List.of_mem_zip inZip).1] at parsed ⊢
  apply parsePartitionValue_denotes _ parsed
  exact List.mem_map.2 ⟨extractPartitionSegments file.path, List.mem_map_of_mem member, rfl⟩

/-- Files in another order have the same keys with the same types. -/
theorem columns_perm {schema : Schema} {files others : List InspectedFile} (permuted : others.Perm files) :
    partitionColumn schema (others.map (fun file => extractPartitionSegments file.path)) =
      partitionColumn schema (files.map (fun file => extractPartitionSegments file.path)) := by
  funext entry
  have same : inferPartitionType (valuesAt others entry.2) = inferPartitionType (valuesAt files entry.2) :=
    inferPartitionType_perm ((permuted.map _).map _)
  unfold partitionColumn
  unfold valuesAt at same
  rw [same]

theorem resolveTable_perm {first other : InspectedFile} {rest others : List InspectedFile} {table : ResolvedTable}
    (resolved : resolveTable first rest = .ok table) (permuted : (other :: others).Perm (first :: rest)) :
    ∃ same, resolveTable other others = .ok same ∧ same.schema = table.schema ∧
      same.partitionColumns = table.partitionColumns := by
  obtain ⟨sameSchema, sameKeys, isColumns, isFiles, isSchema⟩ := resolveTable_ok.1 resolved
  have schemas : ∀ file ∈ first :: rest, file.schema = first.schema := by
    intro file member
    rcases List.mem_cons.1 member with rfl | member
    · rfl
    · exact sameSchema file member
  have isOther : other ∈ first :: rest := permuted.mem_iff.1 List.mem_cons_self
  obtain ⟨files, isOthers⟩ : ∃ files, (other :: others).mapM (resolveFile table.partitionColumns) = .ok files := by
    apply exists_mapM
    intro file member
    obtain ⟨result, -, isResult⟩ := exists_of_mem_left (mapM_eq_ok.mp isFiles) (permuted.mem_iff.1 member)
    exact ⟨result, isResult⟩
  refine ⟨⟨files, table.schema, table.partitionColumns⟩, resolveTable_ok.2 ⟨?_, ?_, ?_, isOthers, ?_⟩, rfl, rfl⟩
  · intro file member
    rw [schemas other isOther, schemas file (permuted.mem_iff.1 (List.mem_cons_of_mem _ member))]
  · intro file member
    rw [sameKeys other isOther, sameKeys file (permuted.mem_iff.1 member)]
  · rw [schemas other isOther, sameKeys other isOther, columns_perm permuted]
    exact isColumns
  · rw [schemas other isOther]
    exact isSchema

/-- A table that was resolved is well formed when and only when neither its files nor the directories of its
first file repeat a name. -/
theorem resolveTable_wellFormed_iff {first : InspectedFile} {rest : List InspectedFile} {table : ResolvedTable}
    (resolved : resolveTable first rest = .ok table) :
    WellFormed first rest table ↔ (first.schema.map Field.name).Nodup ∧ (columnNames first).Nodup := by
  obtain ⟨sameSchema, sameKeys, isColumns, isFiles, isSchema⟩ := resolveTable_ok.1 resolved
  have isNames : table.partitionColumns.map PartitionColumn.name = columnNames first := by
    rw [columns_names isColumns, List.map_map]
    rfl
  have allNames : table.schema.map Field.name = first.schema.map Field.name ++ columnNames first := by
    rw [isSchema, List.map_append, List.map_map, ← isNames]
    rfl
  have apart : List.Disjoint (first.schema.map Field.name) (columnNames first) := by
    intro name inSchema isKey
    obtain ⟨pair, member, rfl⟩ := List.mem_map.1 isKey
    exact (columns_of_keys isColumns).1 pair.1 (List.mem_map_of_mem member) inSchema
  constructor
  · intro wellFormed
    have distinct := wellFormed.distinct
    rw [allNames, List.nodup_append'] at distinct
    exact ⟨distinct.1, distinct.2.1⟩
  · rintro ⟨distinctFields, distinctKeys⟩
    refine ⟨⟨sameSchema, isSchema⟩, ?_, ?_, fun other others => resolveTable_perm resolved⟩
    · rw [allNames, List.nodup_append']
      exact ⟨distinctFields, distinctKeys, apart⟩
    · obtain ⟨sameCount, each⟩ := List.forall₂_iff_zip.1 (mapM_eq_ok.mp isFiles)
      refine List.forall₂_iff_zip.2 ⟨sameCount, fun {file result} inZip => ?_⟩
      have member := (List.of_mem_zip inZip).1
      exact resolveFile_values isColumns member (sameKeys file member) (each inZip)

/-- A file below two directories with values of one key. -/
def repeatedFile : InspectedFile := ⟨"t/a=1/a=x/f.parquet", [⟨"v", int64Type⟩]⟩

def repeatedTable : ResolvedTable :=
  ⟨[⟨repeatedFile, [.int64 1, .string "x"]⟩],
    [⟨"v", int64Type⟩, ⟨"a", int64Type false⟩, ⟨"a", stringType false⟩],
    [⟨"a", int64Type false⟩, ⟨"a", stringType false⟩]⟩

theorem repeatedTable_resolved : resolveTable repeatedFile [] = .ok repeatedTable := by
  rfl

/-- The same file below one directory, and a file of another year. -/
def datedFile : InspectedFile := ⟨"t/a=1/f.parquet", [⟨"v", int64Type⟩]⟩

def laterFile : InspectedFile := ⟨"t/a=2/g.parquet", [⟨"v", int64Type⟩]⟩

def datedTable : ResolvedTable :=
  ⟨[⟨datedFile, [.int64 1]⟩, ⟨laterFile, [.int64 2]⟩], [⟨"v", int64Type⟩, ⟨"a", int64Type false⟩],
    [⟨"a", int64Type false⟩]⟩

theorem datedTable_resolved : resolveTable datedFile [laterFile] = .ok datedTable := by
  rfl

theorem resolveTable_wellFormed_dated :
    WellFormed datedFile [laterFile] datedTable ∧ ¬ WellFormed repeatedFile [] repeatedTable := by
  refine ⟨(resolveTable_wellFormed_iff datedTable_resolved).mpr (by decide), fun wellFormed => ?_⟩
  exact absurd ((resolveTable_wellFormed_iff repeatedTable_resolved).mp wellFormed).2 (by decide)

/-- The table has two columns of one name. -/
theorem resolveTable_repeats : ∃ (first : InspectedFile) (rest : List InspectedFile) (table : ResolvedTable),
    resolveTable first rest = .ok table ∧ ¬ WellFormed first rest table := by
  refine ⟨repeatedFile, [], repeatedTable, repeatedTable_resolved, fun wellFormed => ?_⟩
  exact absurd wellFormed.distinct (by decide)

end KernelLake.TableResolution
