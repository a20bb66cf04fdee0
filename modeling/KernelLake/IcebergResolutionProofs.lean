import KernelLake.IcebergResolution
import KernelLake.Library.Results
import Mathlib.Data.Int.Interval
import Mathlib.Data.List.Nodup

/-!
When a resolved Iceberg table is the whole snapshot.

`SnapshotContent` is what the manifests of a snapshot hold: its live data files and every row of its
position deletes. Resolution works on counts of these rows. It loses no file unless rows that repeat a
position, or name none of the file, make up the number of its records; and it sees the whole snapshot
unless the snapshot is not listed or a read of a manifest fails half-way.
-/

namespace KernelLake.IcebergResolutionProofs

open KernelLake.Types KernelLake.LogicalPlans KernelLake.Library.Results
open KernelLake.Pruning (FileMetadata numbered_nil)
open KernelLake.IcebergManifests KernelLake.PartitionPruning KernelLake.IcebergResolution

/-! ## Counting -/

/-- Counts of the occurrences in a list of paths. -/
def Tally (counts : PathCounts) (paths : List String) : Prop :=
  ∀ path, counts.lookup path = if path ∈ paths then some (paths.count path) else none

theorem lookup_addCount (path other : String) (amount : Nat) (counts : PathCounts) :
    (addCount path amount counts).lookup other =
      if other = path then some ((counts.lookup path).getD 0 + amount) else counts.lookup other := by
  induction counts with
  | nil =>
    by_cases same : other = path
    · simp [addCount, same]
    · simp [addCount, same, List.lookup_cons, beq_eq_false_iff_ne.mpr same]
  | cons entry rest hypothesis =>
    obtain ⟨key, count⟩ := entry
    simp only [addCount]
    by_cases isKey : key = path
    · subst isKey
      by_cases same : other = key
      · simp [same]
      · simp [same, List.lookup_cons, beq_eq_false_iff_ne.mpr same]
    · rw [if_neg isKey, List.lookup_cons, List.lookup_cons, List.lookup_cons, hypothesis]
      by_cases same : other = path
      · have notKey : (other == key) = false := beq_eq_false_iff_ne.mpr (fun h => isKey (h ▸ same))
        have notPath : (path == key) = false := beq_eq_false_iff_ne.mpr (Ne.symm isKey)
        simp [same, notPath]
      · cases other == key <;> simp [same]

theorem addCount_keys (path : String) (amount : Nat) (counts : PathCounts) :
    (addCount path amount counts).map Prod.fst =
      if path ∈ counts.map Prod.fst then counts.map Prod.fst else counts.map Prod.fst ++ [path] := by
  induction counts with
  | nil => rfl
  | cons entry rest hypothesis =>
    obtain ⟨key, count⟩ := entry
    simp only [addCount]
    by_cases isKey : key = path
    · simp [isKey]
    · rw [if_neg isKey, List.map_cons, hypothesis]
      by_cases present : path ∈ rest.map Prod.fst
      · simp [present]
      · simp [present, Ne.symm isKey]

theorem nodup_addCount {counts : PathCounts} (distinct : (counts.map Prod.fst).Nodup) (path : String)
    (amount : Nat) : ((addCount path amount counts).map Prod.fst).Nodup := by
  rw [addCount_keys]
  split
  · exact distinct
  · rename_i absent
    exact List.nodup_append.mpr ⟨distinct, List.nodup_singleton _, by
      intro key member other isOther same
      rw [List.mem_singleton.mp isOther] at same
      exact absent (same ▸ member)⟩

/-- A tally with distinct keys, as counting builds it. -/
structure Counted (counts : PathCounts) (paths : List String) : Prop where
  tally : Tally counts paths
  distinct : (counts.map Prod.fst).Nodup

theorem counted_empty : Counted [] [] :=
  ⟨fun _ => rfl, List.nodup_nil⟩

theorem counted_addCount {counts : PathCounts} {paths : List String} (counted : Counted counts paths)
    (path : String) : Counted (addCount path 1 counts) (paths ++ [path]) := by
  refine ⟨fun other => ?_, nodup_addCount counted.distinct path 1⟩
  rw [lookup_addCount, counted.tally path, counted.tally other]
  by_cases same : other = path
  · subst same
    by_cases present : other ∈ paths
    · simp [present]
    · simp [present, List.count_eq_zero_of_not_mem present]
  · simp [same, List.count_append, Ne.symm same]

theorem lookup_merge {added : PathCounts} (distinct : (added.map Prod.fst).Nodup) (counts : PathCounts)
    (path : String) :
    (added.foldl (fun counts (path, count) => addCount path count counts) counts).lookup path =
      match added.lookup path with
      | none => counts.lookup path
      | some count => some ((counts.lookup path).getD 0 + count) := by
  induction added generalizing counts with
  | nil => rfl
  | cons entry rest hypothesis =>
    obtain ⟨key, count⟩ := entry
    rw [List.map_cons, List.nodup_cons] at distinct
    rw [List.foldl_cons, hypothesis distinct.2, List.lookup_cons, lookup_addCount]
    by_cases same : path = key
    · subst same
      have absent : rest.lookup path = none := by
        rw [List.lookup_eq_none_iff]
        intro pair member
        exact bne_iff_ne.mpr (fun isPath => distinct.1 (List.mem_map.mpr ⟨pair, member, isPath.symm⟩))
      simp [absent]
    · simp [same, beq_eq_false_iff_ne.mpr same]

theorem counted_merge {counts added : PathCounts} {paths others : List String}
    (counted : Counted counts paths) (countedOthers : Counted added others) :
    Counted (added.foldl (fun counts (path, count) => addCount path count counts) counts)
      (paths ++ others) := by
  refine ⟨fun path => ?_, ?_⟩
  · rw [lookup_merge countedOthers.distinct, countedOthers.tally path, counted.tally path]
    by_cases inOthers : path ∈ others
    · by_cases present : path ∈ paths
      · simp [inOthers, present]
      · simp [inOthers, present, List.count_eq_zero_of_not_mem present]
    · simp [inOthers, List.count_eq_zero_of_not_mem inOthers]
  · have distinct := counted.distinct
    clear countedOthers counted
    induction added generalizing counts with
    | nil => exact distinct
    | cons entry rest hypothesis => exact hypothesis (nodup_addCount distinct entry.1 entry.2)

/-! ## Content of a snapshot -/

def DeleteBatches.rows : DeleteBatches → List DeleteRow
  | .done => []
  | .failed _ => []
  | .mistyped rest => rows rest
  | .batch first rest => first ++ rows rest

/-- The paths that delete rows name. -/
def namedPaths (rows : List DeleteRow) : List String :=
  rows.filterMap DeleteRow.filePath

theorem countRows_counted {path : String} {counts final : PathCounts} {paths : List String}
    {rows : List DeleteRow} (counted : Counted counts paths) (ran : countRows path counts rows = .ok final) :
    Counted final (paths ++ namedPaths rows) := by
  have whole := foldlM_invariant
    (fun before state => Counted state (paths ++ namedPaths (before.map Prod.fst)))
    (fun before state input next holds stepRan => ?_) ran (by simpa [namedPaths] using counted)
  · rwa [List.zipIdx_map_fst] at whole
  · obtain ⟨row, index⟩ := input
    cases named : row.filePath with
    | none => simp [named] at stepRan
    | some referenced =>
      simp only [named, Except.ok.injEq] at stepRan
      rw [← stepRan]
      have added := counted_addCount holds referenced
      simpa [namedPaths, named] using added

theorem countBatches_counted {path : String} {counts final : PathCounts} {paths : List String}
    {batches : DeleteBatches} (counted : Counted counts paths)
    (ran : countBatches path counts batches = .ok final) :
    Counted final (paths ++ namedPaths (DeleteBatches.rows batches)) := by
  induction batches generalizing counts paths with
  | done =>
    rw [← Except.ok.inj ran]
    simpa [DeleteBatches.rows, namedPaths] using counted
  | failed message => cases ran
  | mistyped rest hypothesis => cases ran
  | batch rows rest hypothesis =>
    obtain ⟨next, rowsRan, restRan⟩ := bind_eq_ok.mp ran
    have whole := hypothesis (countRows_counted counted rowsRan) restRan
    simpa [DeleteBatches.rows, namedPaths] using whole

/-- Whether pruning leaves out a data file. -/
def isPruned (metadata : IcebergTableMetadata) (predicates : List PushablePredicate)
    (manifest : ManifestListEntry) (dataFile : ManifestDataFileEntry) : Bool :=
  (findPartitionSpec metadata manifest.partitionSpecId).any (fun spec =>
    partitionValuesProveEmpty metadata spec dataFile.partitionValues predicates)

/-- An entry's file belongs to the snapshot: it has existed before (0) or is added (1), not removed (2). -/
def isInSnapshot (entry : ManifestDataFileEntry) : Bool :=
  [0, 1].contains entry.status

theorem isInSnapshot_eq (entry : ManifestDataFileEntry) : isInSnapshot entry = isLiveStatus entry.status := by
  simp [isInSnapshot, isLiveStatus]

/-- The rows of a delete file that belongs to the snapshot. -/
def positionDeletes (store : IcebergStore) (deleteFile : ManifestDataFileEntry) :
    Except String (List DeleteRow) :=
  if !isInSnapshot deleteFile then .ok []
  else do return DeleteBatches.rows (← store.openDeleteFile deleteFile.filePath).batches

/-- What a snapshot holds: its live data files that are not pruned, and the rows of its deletes. -/
structure SnapshotContent where
  dataFiles : List ManifestDataFileEntry
  deletes : List DeleteRow

/-- What a manifest with these entries adds to the content of its snapshot. -/
def entriesContent (store : IcebergStore) (metadata : IcebergTableMetadata)
    (predicates : List PushablePredicate) (manifest : ManifestListEntry)
    (entries : List ManifestDataFileEntry) : Except String SnapshotContent := do
  if manifest.content = 1 then return ⟨[], (← entries.mapM (positionDeletes store)).flatten⟩
  else return ⟨entries.filter (fun dataFile =>
    isInSnapshot dataFile && !isPruned metadata predicates manifest dataFile), []⟩

def manifestContent (store : IcebergStore) (metadata : IcebergTableMetadata)
    (predicates : List PushablePredicate) (manifest : ManifestListEntry) : Except String SnapshotContent := do
  entriesContent store metadata predicates manifest (← readManifest store.toAvroStore manifest.manifestPath)

def snapshotContent (store : IcebergStore) (metadata : IcebergTableMetadata)
    (predicates : List PushablePredicate) (manifestListPath : String) : Except String SnapshotContent := do
  let manifests ← readManifestList store.toAvroStore manifestListPath
  let parts ← manifests.mapM (manifestContent store metadata predicates)
  return ⟨parts.flatMap SnapshotContent.dataFiles, parts.flatMap SnapshotContent.deletes⟩

theorem liveDataFiles_eq_ok {metadata : IcebergTableMetadata} {predicates : List PushablePredicate}
    {manifest : ManifestListEntry} {entries live : List ManifestDataFileEntry}
    (ran : liveDataFiles metadata (findPartitionSpec metadata manifest.partitionSpecId) predicates entries =
      .ok live) :
    live = entries.filter (fun dataFile =>
      isInSnapshot dataFile && !isPruned metadata predicates manifest dataFile) := by
  simp only [isInSnapshot_eq]
  induction entries generalizing live with
  | nil => exact (Except.ok.inj ran).symm
  | cons dataFile rest hypothesis =>
    unfold liveDataFiles at ran
    split at ran
    · rename_i dead
      rw [List.filter_cons_of_neg (by simp_all), hypothesis ran]
    · rename_i alive
      split at ran
      · cases ran
      · split at ran
        · rename_i pruned
          rw [List.filter_cons_of_neg (by simp_all [isPruned]), hypothesis ran]
        · rename_i notPruned
          simp only [bind_eq_ok, pure_eq_ok] at ran
          obtain ⟨others, othersRan, rfl⟩ := ran
          rw [List.filter_cons_of_pos (by simp_all [isPruned]), hypothesis othersRan]

theorem addDeleteFile_eq_ok {store : IcebergStore} {counts next : PathCounts} {paths : List String}
    {deleteFile : ManifestDataFileEntry} (counted : Counted counts paths)
    (ran : addDeleteFile store counts deleteFile = .ok next) :
    ∃ rows, positionDeletes store deleteFile = .ok rows ∧ Counted next (paths ++ namedPaths rows) := by
  unfold addDeleteFile at ran
  rw [positionDeletes, isInSnapshot_eq]
  split at ran
  · rename_i dead
    rw [if_pos dead, ← Except.ok.inj ran]
    exact ⟨[], rfl, by simpa [namedPaths] using counted⟩
  · rename_i alive
    simp only [bind_eq_ok, pure_eq_ok] at ran
    obtain ⟨_, _, added, addedRan, rfl⟩ := ran
    simp only [readPositionDeleteCounts, bind_eq_ok] at addedRan
    obtain ⟨file, opened, countsRan⟩ := addedRan
    split at countsRan
    · cases countsRan
    · rw [if_neg alive, opened]
      have countedFile := countBatches_counted counted_empty countsRan
      exact ⟨_, rfl, counted_merge counted (by simpa using countedFile)⟩

theorem addManifest_eq_ok {store : IcebergStore} {metadata : IcebergTableMetadata}
    {predicates : List PushablePredicate} {files next : SnapshotFiles} {manifest : ManifestListEntry}
    {paths : List String} (counted : Counted files.deletedPositionCounts paths)
    (ran : addManifest store metadata predicates files manifest = .ok next) :
    ∃ part, manifestContent store metadata predicates manifest = .ok part ∧
      next.dataFiles = files.dataFiles ++ part.dataFiles ∧
      Counted next.deletedPositionCounts (paths ++ namedPaths part.deletes) := by
  unfold addManifest at ran
  unfold manifestContent
  split at ran
  · rename_i isDeletes
    simp only [bind_eq_ok, pure_eq_ok] at ran
    obtain ⟨entries, entriesRan, counts, countsRan, rfl⟩ := ran
    have whole := foldlM_invariant
      (fun before counts => ∃ rows, before.mapM (positionDeletes store) = .ok rows ∧
        Counted counts (paths ++ namedPaths rows.flatten))
      (fun before counts deleteFile next holds stepRan => ?_) countsRan
      ⟨[], rfl, by simpa [namedPaths] using counted⟩
    · obtain ⟨rows, rowsRan, countedRows⟩ := whole
      refine ⟨⟨[], rows.flatten⟩, bind_eq_ok.mpr ⟨entries, entriesRan, ?_⟩, by simp, countedRows⟩
      rw [entriesContent, if_pos isDeletes]
      exact bind_eq_ok.mpr ⟨rows, rowsRan, rfl⟩
    · obtain ⟨rows, rowsRan, countedRows⟩ := holds
      obtain ⟨added, addedRan, countedAdded⟩ := addDeleteFile_eq_ok countedRows stepRan
      exact ⟨rows ++ [added], mapM_concat rowsRan addedRan, by simpa [namedPaths] using countedAdded⟩
  · rename_i isData
    simp only [bind_eq_ok, pure_eq_ok] at ran
    obtain ⟨entries, entriesRan, live, liveRan, rfl⟩ := ran
    refine ⟨⟨live, []⟩, bind_eq_ok.mpr ⟨entries, entriesRan, ?_⟩, rfl, by simpa [namedPaths] using counted⟩
    rw [entriesContent, if_neg isData, liveDataFiles_eq_ok liveRan]
    rfl

/-- Reading a snapshot finds its data files and counts the rows of its deletes. -/
theorem readSnapshot_eq_ok {store : IcebergStore} {metadata : IcebergTableMetadata}
    {predicates : List PushablePredicate} {path : String} {files : SnapshotFiles}
    (ran : readSnapshot store metadata predicates path = .ok files) :
    ∃ content, snapshotContent store metadata predicates path = .ok content ∧
      files.dataFiles = content.dataFiles ∧
      Counted files.deletedPositionCounts (namedPaths content.deletes) := by
  simp only [readSnapshot, bind_eq_ok] at ran
  obtain ⟨manifests, manifestsRan, filesRan⟩ := ran
  have whole := foldlM_invariant
    (fun before files => ∃ parts, before.mapM (manifestContent store metadata predicates) = .ok parts ∧
      files.dataFiles = parts.flatMap SnapshotContent.dataFiles ∧
      Counted files.deletedPositionCounts (namedPaths (parts.flatMap SnapshotContent.deletes)))
    (fun before files manifest next holds stepRan => ?_) filesRan ⟨[], rfl, rfl, counted_empty⟩
  · obtain ⟨parts, partsRan, isFiles, counted⟩ := whole
    exact ⟨⟨_, _⟩, bind_eq_ok.mpr ⟨manifests, manifestsRan, bind_eq_ok.mpr ⟨parts, partsRan, rfl⟩⟩, isFiles,
      counted⟩
  · obtain ⟨parts, partsRan, isFiles, counted⟩ := holds
    obtain ⟨part, partRan, isNext, countedNext⟩ := addManifest_eq_ok counted stepRan
    exact ⟨parts ++ [part], mapM_concat partsRan partRan, by simp [isNext, isFiles],
      by simpa [namedPaths] using countedNext⟩

/-! ## Example stores -/

def listRecord (path : String) (content : Int32) : AvroValue :=
  .record [("manifest_path", .string path), ("manifest_length", .long 0), ("partition_spec_id", .int 0),
    ("content", .int content), ("added_snapshot_id", .long 1)]

def fileRecord (path : String) (content : Int32) (recordCount : Int64) : AvroValue :=
  .record [("status", .int 1), ("data_file", .record [("content", .int content), ("file_path", .string path),
    ("file_format", .string "PARQUET"), ("record_count", .long recordCount),
    ("file_size_in_bytes", .long 0), ("partition", .record [])])]

/-- A store of container files, each read to its end, and of position delete files. -/
def storeOf (containers : List (String × AvroStream)) (deletes : List (String × List DeleteRow)) :
    IcebergStore where
  readAllBytes path :=
    match containers.findIdx? (fun container => container.1 = path) with
    | some index => .ok [UInt8.ofNat index]
    | none => .error "no such object"
  openAvroReader
    | [index] =>
      match containers[index.toNat]? with
      | some container => .ok container.2
      | none => .error "not an Avro file"
    | _ => .error "not an Avro file"
  openDeleteFile path :=
    match deletes.lookup path with
    | some rows => .ok ⟨true, .batch rows .done⟩
    | none => .error "no such object"
  inspectParquetFile path := .ok ⟨⟨path, [], numbered_nil⟩, [⟨"id", int64Type false⟩]⟩

def ordersMetadata : IcebergTableMetadata where
  currentSnapshotId := some 1
  snapshots := [⟨1, "list.avro"⟩]
  schemaFields := [⟨1, "id", true, "long"⟩]
  partitionSpecs := []

/-- Two data files of two rows; both rows of `b.parquet` are deleted, by two delete files. -/
def deletedStore : IcebergStore :=
  storeOf [("list.avro", .record (listRecord "deletes.avro" 1) (.record (listRecord "data.avro" 0) .endOfFile)),
      ("data.avro", .record (fileRecord "a.parquet" 0 2) (.record (fileRecord "b.parquet" 0 2) .endOfFile)),
      ("deletes.avro", .record (fileRecord "d1.parquet" 1 1) (.record (fileRecord "d2.parquet" 1 1) .endOfFile))]
    [("d1.parquet", [⟨some "b.parquet", some 1⟩]), ("d2.parquet", [⟨some "b.parquet", some 0⟩])]

/-- Both delete files delete the first row of `b.parquet`. -/
def repeatedStore : IcebergStore :=
  storeOf [("list.avro", .record (listRecord "deletes.avro" 1) (.record (listRecord "data.avro" 0) .endOfFile)),
      ("data.avro", .record (fileRecord "a.parquet" 0 2) (.record (fileRecord "b.parquet" 0 2) .endOfFile)),
      ("deletes.avro", .record (fileRecord "d1.parquet" 1 1) (.record (fileRecord "d2.parquet" 1 1) .endOfFile))]
    [("d1.parquet", [⟨some "b.parquet", some 0⟩]), ("d2.parquet", [⟨some "b.parquet", some 0⟩])]

/-- The manifest breaks off after its first record. -/
def brokenStore : IcebergStore :=
  storeOf [("list.avro", .record (listRecord "data.avro" 0) .endOfFile),
      ("data.avro", .record (fileRecord "a.parquet" 0 2) .decodeError)] []

/-! ## Deleted files -/

section Deletes

variable {deletes : List DeleteRow} {dataFile : ManifestDataFileEntry}

/-- The delete rows that name a data file. -/
def rowsNaming (deletes : List DeleteRow) (dataFile : ManifestDataFileEntry) : List DeleteRow :=
  deletes.filter (fun row => row.filePath = some dataFile.filePath)

/-- A position of a data file is deleted. -/
def Deleted (deletes : List DeleteRow) (dataFile : ManifestDataFileEntry) (position : Int) : Prop :=
  ∃ row ∈ rowsNaming deletes dataFile, row.position.map Int64.toInt = some position

/-- A data file has deletes, and they cover all of its positions. -/
def FullyDeleted (deletes : List DeleteRow) (dataFile : ManifestDataFileEntry) : Prop :=
  rowsNaming deletes dataFile ≠ [] ∧
    ∀ position, 0 ≤ position → position < dataFile.recordCount.toInt → Deleted deletes dataFile position

/-- A data file is named by as many delete rows as it has records, but not all of its positions are
deleted: some of the rows repeat a position, or name none of the file. -/
def Overcounted (content : SnapshotContent) : Prop :=
  ∃ dataFile ∈ content.dataFiles, rowsNaming content.deletes dataFile ≠ [] ∧
    dataFile.recordCount.toInt ≤ (rowsNaming content.deletes dataFile).length ∧
    ∃ position, 0 ≤ position ∧ position < dataFile.recordCount.toInt ∧
      ¬ Deleted content.deletes dataFile position

theorem count_namedPaths (deletes : List DeleteRow) (dataFile : ManifestDataFileEntry) :
    (namedPaths deletes).count dataFile.filePath = (rowsNaming deletes dataFile).length := by
  induction deletes with
  | nil => rfl
  | cons row rest hypothesis =>
    cases named : row.filePath with
    | none => simpa [namedPaths, rowsNaming, named] using hypothesis
    | some path =>
      by_cases same : path = dataFile.filePath
      · simpa [namedPaths, rowsNaming, named, same] using hypothesis
      · simpa [namedPaths, rowsNaming, named, same] using hypothesis

theorem mem_namedPaths : dataFile.filePath ∈ namedPaths deletes ↔ rowsNaming deletes dataFile ≠ [] := by
  rw [← List.count_pos_iff, count_namedPaths, List.length_pos_iff]

/-- What is counted for a data file. -/
theorem lookup_counted {counts : PathCounts} (counted : Counted counts (namedPaths deletes))
    (dataFile : ManifestDataFileEntry) :
    counts.lookup dataFile.filePath =
      if rowsNaming deletes dataFile ≠ [] then some (rowsNaming deletes dataFile).length else none := by
  rw [counted.tally, count_namedPaths]
  simp only [mem_namedPaths]

theorem survivingDataFiles_eq_ok {counts : PathCounts} {dataFiles surviving : List ManifestDataFileEntry}
    (ran : survivingDataFiles counts dataFiles = .ok surviving) :
    surviving = dataFiles.filter (fun dataFile => (counts.lookup dataFile.filePath).isNone) ∧
      ∀ dataFile ∈ dataFiles, ∀ count, counts.lookup dataFile.filePath = some count →
        dataFile.recordCount.toInt ≤ count := by
  induction dataFiles generalizing surviving with
  | nil => exact ⟨(Except.ok.inj ran).symm, by simp⟩
  | cons first rest hypothesis =>
    unfold survivingDataFiles at ran
    split at ran
    · rename_i absent
      simp only [bind_eq_ok, pure_eq_ok] at ran
      obtain ⟨others, othersRan, rfl⟩ := ran
      obtain ⟨isFilter, bounded⟩ := hypothesis othersRan
      refine ⟨by rw [List.filter_cons_of_pos (by simp [absent]), isFilter], ?_⟩
      rw [List.forall_mem_cons]
      refine ⟨fun count held => ?_, bounded⟩
      rw [absent] at held
      cases held
    · rename_i count held
      split at ran
      · rename_i enough
        obtain ⟨isFilter, bounded⟩ := hypothesis ran
        refine ⟨by rw [List.filter_cons_of_neg (by simp [held]), isFilter], ?_⟩
        rw [List.forall_mem_cons]
        refine ⟨fun other isOther => ?_, bounded⟩
        rw [held] at isOther
        exact Option.some.inj isOther ▸ enough
      · cases ran

end Deletes

/-- The files of a table are those of the data files that are kept; one that is left out is fully
deleted. -/
def LosesNone (store : IcebergStore) (content : SnapshotContent) (table : ResolvedTable)
    (kept : ManifestDataFileEntry → Bool) : Prop :=
  (content.dataFiles.filter kept).mapM (inspectDataFile store table.schema) = .ok table.files ∧
    ∀ dataFile ∈ content.dataFiles, kept dataFile = false → FullyDeleted content.deletes dataFile

/-- No position of a file that is kept is deleted. -/
def ResurrectsNone (content : SnapshotContent) (kept : ManifestDataFileEntry → Bool) : Prop :=
  ∀ dataFile ∈ content.dataFiles, kept dataFile = true →
    ∀ position, 0 ≤ position → position < dataFile.recordCount.toInt →
      ¬ Deleted content.deletes dataFile position

section Resolved

variable {store : IcebergStore} {metadata : IcebergTableMetadata} {predicates : List PushablePredicate}
  {table : ResolvedTable} {path : String}

/-- How a table with a snapshot has been resolved: the files without deletes remain, and every other one
has at least as many delete rows as records. -/
theorem resolveIcebergTable_eq_ok (ran : resolveIcebergTable store metadata predicates = .ok table)
    (isPath : currentManifestList metadata = some path) :
    ∃ content, snapshotContent store metadata predicates path = .ok content ∧
      (content.dataFiles.filter (fun dataFile => (rowsNaming content.deletes dataFile).isEmpty)).mapM
        (inspectDataFile store table.schema) = .ok table.files ∧
      ∀ dataFile ∈ content.dataFiles, rowsNaming content.deletes dataFile ≠ [] →
        dataFile.recordCount.toInt ≤ (rowsNaming content.deletes dataFile).length := by
  simp only [resolveIcebergTable, bind_eq_ok, isPath, pure_eq_ok] at ran
  obtain ⟨schema, -, files, filesRan, surviving, survivingRan, inspected, inspectedRan, rfl⟩ := ran
  obtain ⟨content, contentRan, isFiles, counted⟩ := readSnapshot_eq_ok filesRan
  obtain ⟨isSurviving, bounded⟩ := survivingDataFiles_eq_ok survivingRan
  rw [isFiles] at isSurviving bounded
  refine ⟨content, contentRan, ?_, fun dataFile member named => ?_⟩
  · rw [← inspectedRan, isSurviving]
    congr 1
    refine List.filter_congr (fun dataFile _ => ?_)
    rw [lookup_counted counted]
    cases rowsNaming content.deletes dataFile with
    | nil => rfl
    | cons row rest => rfl
  · refine bounded dataFile member _ ?_
    rw [lookup_counted counted, if_pos named]

/-- The selection that resolution makes: files that no delete row names. -/
def unnamed (content : SnapshotContent) (dataFile : ManifestDataFileEntry) : Bool :=
  (rowsNaming content.deletes dataFile).isEmpty

theorem losesNone_of_not_overcounted {content : SnapshotContent}
    (inspected : (content.dataFiles.filter (unnamed content)).mapM (inspectDataFile store table.schema) =
      .ok table.files)
    (enough : ∀ dataFile ∈ content.dataFiles, rowsNaming content.deletes dataFile ≠ [] →
      dataFile.recordCount.toInt ≤ (rowsNaming content.deletes dataFile).length)
    (notOvercounted : ¬ Overcounted content) : LosesNone store content table (unnamed content) := by
  refine ⟨inspected, fun dataFile member dropped => ?_⟩
  have named : rowsNaming content.deletes dataFile ≠ [] := by
    intro none
    simp [unnamed, none] at dropped
  refine ⟨named, fun position first last => ?_⟩
  by_contra kept
  exact notOvercounted ⟨dataFile, member, named, enough dataFile member named, position, first, last, kept⟩

/-- If some selection loses no file, then resolution does not overcount: every file it keeps must be kept,
and so must one that it drops without all of its positions being deleted. -/
theorem not_overcounted_of_losesNone {content : SnapshotContent} {kept : ManifestDataFileEntry → Bool}
    (inspected : (content.dataFiles.filter (unnamed content)).mapM (inspectDataFile store table.schema) =
      .ok table.files)
    (losesNone : LosesNone store content table kept) : ¬ Overcounted content := by
  rintro ⟨lost, member, named, -, position, first, last, notDeleted⟩
  have keptUnlessDeleted : ∀ dataFile ∈ content.dataFiles, ¬ FullyDeleted content.deletes dataFile →
      kept dataFile = true := by
    intro dataFile inFiles notFully
    by_contra dropped
    exact notFully (losesNone.2 dataFile inFiles (by simpa using dropped))
  have lostKept := keptUnlessDeleted lost member (fun fully => notDeleted (fully.2 position first last))
  have narrower : (content.dataFiles.filter kept).filter (unnamed content) =
      content.dataFiles.filter (unnamed content) := by
    rw [List.filter_filter]
    refine List.filter_congr (fun dataFile inFiles => ?_)
    cases isUnnamed : unnamed content dataFile with
    | false => rfl
    | true =>
      rw [keptUnlessDeleted dataFile inFiles (fun fully => fully.1 (List.isEmpty_iff.mp isUnnamed))]
      rfl
  have sameLength : (content.dataFiles.filter (unnamed content)).length =
      (content.dataFiles.filter kept).length :=
    ((mapM_eq_ok.mp inspected).length_eq).trans (mapM_eq_ok.mp losesNone.1).length_eq.symm
  rw [← narrower, List.length_filter_eq_length_iff] at sameLength
  exact named (List.isEmpty_iff.mp (sameLength lost (List.mem_filter.mpr ⟨member, lostKept⟩)))

/-- Resolution neither loses nor resurrects rows unless a file's delete rows are miscounted. -/
theorem resolveIcebergTable_deletes (ran : resolveIcebergTable store metadata predicates = .ok table)
    (isPath : currentManifestList metadata = some path) :
    ∃ content, snapshotContent store metadata predicates path = .ok content ∧
      ((∃ kept, LosesNone store content table kept ∧ ResurrectsNone content kept) ↔
        ¬ Overcounted content) := by
  obtain ⟨content, contentRan, inspected, enough⟩ := resolveIcebergTable_eq_ok ran isPath
  refine ⟨content, contentRan, ?_, fun notOvercounted => ?_⟩
  · rintro ⟨kept, losesNone, -⟩
    exact not_overcounted_of_losesNone inspected losesNone
  · refine ⟨unnamed content, losesNone_of_not_overcounted inspected enough notOvercounted, ?_⟩
    rintro dataFile - isUnnamed position - - ⟨row, member, -⟩
    rw [List.isEmpty_iff.mp isUnnamed] at member
    cases member

theorem resolveIcebergTable_deletes_whole :
    ∃ table, resolveIcebergTable deletedStore ordersMetadata [] = .ok table ∧
      ∃ content, snapshotContent deletedStore ordersMetadata [] "list.avro" = .ok content ∧
        ((∃ kept, LosesNone deletedStore content table kept ∧ ResurrectsNone content kept) ↔
          ¬ Overcounted content) :=
  ⟨_, rfl, resolveIcebergTable_deletes rfl rfl⟩

/-- The two delete rows count for two records, although the second row of the file is not deleted. -/
theorem repeated_delete_loses_rows :
    ¬ ∀ (store : IcebergStore) (metadata : IcebergTableMetadata) (predicates : List PushablePredicate)
        (table : ResolvedTable) (path : String) (content : SnapshotContent),
      resolveIcebergTable store metadata predicates = .ok table → currentManifestList metadata = some path →
        snapshotContent store metadata predicates path = .ok content →
        ∃ kept, LosesNone store content table kept ∧ ResurrectsNone content kept := by
  intro correct
  obtain ⟨kept, losesNone, -⟩ := correct repeatedStore ordersMetadata [] _ "list.avro" _ rfl rfl rfl
  refine not_overcounted_of_losesNone rfl losesNone ?_
  refine ⟨_, List.mem_cons_of_mem _ (List.mem_cons_self ..), by decide, by decide, 1, by decide, by decide, ?_⟩
  unfold Deleted
  decide

/-- Rows that repeat no position of a file and name none outside it are counted rightly. -/
theorem not_overcounted_of_distinct {content : SnapshotContent}
    (distinct : ∀ dataFile ∈ content.dataFiles,
      ((rowsNaming content.deletes dataFile).map DeleteRow.position).Nodup)
    (inside : ∀ dataFile ∈ content.dataFiles, ∀ row ∈ rowsNaming content.deletes dataFile,
      ∃ position, row.position = some position ∧ 0 ≤ position.toInt ∧
        position.toInt < dataFile.recordCount.toInt) : ¬ Overcounted content := by
  rintro ⟨dataFile, member, -, enough, position, first, last, notDeleted⟩
  -- As many distinct numbers below the record count as there are records are all of them.
  let positions := (rowsNaming content.deletes dataFile).map (fun row => row.position.map Int64.toInt)
  have injective : Function.Injective (Option.map Int64.toInt) :=
    Option.map_injective (fun _ _ => Int64.toInt_inj.mp)
  have nodup : positions.Nodup := by
    have mapped := (distinct dataFile member).map injective
    rwa [List.map_map] at mapped
  let range := (Finset.Ico 0 dataFile.recordCount.toInt).map Function.Embedding.some
  have within : positions.toFinset ⊆ range := by
    intro found isFound
    obtain ⟨row, inRows, rfl⟩ := List.mem_map.mp (List.mem_toFinset.mp isFound)
    obtain ⟨number, isNumber, lowest, highest⟩ := inside dataFile member row inRows
    exact Finset.mem_map.mpr ⟨number.toInt, Finset.mem_Ico.mpr ⟨lowest, highest⟩, by simp [isNumber]⟩
  have large : range.card ≤ positions.toFinset.card := by
    rw [List.toFinset_card_of_nodup nodup, Finset.card_map, Int.card_Ico, List.length_map]
    omega
  have all := Finset.eq_of_subset_of_card_le within large
  have inRange : some position ∈ range :=
    Finset.mem_map.mpr ⟨position, Finset.mem_Ico.mpr ⟨first, last⟩, rfl⟩
  rw [← all, List.mem_toFinset] at inRange
  obtain ⟨row, inRows, isPosition⟩ := List.mem_map.mp inRange
  exact notDeleted ⟨row, inRows, isPosition⟩

end Resolved

/-! ## Records of a snapshot -/

/-- The reads of a container file with these records. -/
def AvroStream.ofRecords (records : List AvroValue) : AvroStream :=
  records.foldr .record .endOfFile

/-- A container file holds exactly these records. -/
def HasRecords (store : IcebergStore) (path : String) (records : List AvroValue) : Prop :=
  ∃ bytes, store.readAllBytes path = .ok bytes ∧
    store.openAvroReader bytes = .ok (AvroStream.ofRecords records)

/-- A record has a field of this name, whose live branch stands for a value. -/
def HasField {α : Type} (StandsFor : AvroValue → α → Prop) (record : AvroValue) (name : String) (value : α) :
    Prop :=
  ∃ fields field, record = .record fields ∧ fields.lookup name = some field ∧ StandsFor (liveBranch field) value

/-- Null stands for zero. -/
def IsInt (field : AvroValue) (value : Int32) : Prop :=
  field = .int value ∨ field = .null ∧ value = 0

def IsLong (field : AvroValue) (value : Int64) : Prop :=
  field = .long value ∨ field = .null ∧ value = 0

def IsText (field : AvroValue) (text : String) : Prop :=
  ∃ whole, field = .string whole ∧ text = cString whole

def IsPartition (field : AvroValue) (values : List PartitionFieldValue) : Prop :=
  ∃ fields, field = .record fields ∧ values = fields.map (fun field => decodePartitionField field.2)

/-- The record of a manifest list that describes a manifest. -/
structure DescribesManifest (record : AvroValue) (manifest : ManifestListEntry) : Prop where
  path : HasField IsText record "manifest_path" manifest.manifestPath
  length : HasField IsLong record "manifest_length" manifest.manifestLength
  specId : HasField IsInt record "partition_spec_id" manifest.partitionSpecId
  content : HasField IsInt record "content" manifest.content
  snapshotId : HasField IsLong record "added_snapshot_id" manifest.addedSnapshotId

/-- The `data_file` of a record that describes a file. -/
structure DescribesDataFile (dataFile : AvroValue) (entry : ManifestDataFileEntry) : Prop where
  path : HasField IsText dataFile "file_path" entry.filePath
  format : HasField IsText dataFile "file_format" entry.fileFormat
  recordCount : HasField IsLong dataFile "record_count" entry.recordCount
  fileSize : HasField IsLong dataFile "file_size_in_bytes" entry.fileSizeInBytes
  partition : ∃ field, getByName dataFile "partition" = some field ∧ IsPartition field entry.partitionValues
  content : entry.content = getOptionalInt dataFile "content" 0

/-- The record of a manifest that describes a file and whether the snapshot has it. -/
structure DescribesFile (record : AvroValue) (entry : ManifestDataFileEntry) : Prop where
  status : HasField IsInt record "status" entry.status
  dataFile : ∃ dataFile, getByName record "data_file" = some dataFile ∧ DescribesDataFile dataFile entry

/-- The manifests in a manifest list, one for each of its records. -/
def ListsManifests (store : IcebergStore) (path : String) (manifests : List ManifestListEntry) : Prop :=
  ∃ records, HasRecords store path records ∧ List.Forall₂ DescribesManifest records manifests

/-- The files in a manifest, one for each of its records. -/
def ListsFiles (store : IcebergStore) (path : String) (entries : List ManifestDataFileEntry) : Prop :=
  ∃ records, HasRecords store path records ∧ List.Forall₂ DescribesFile records entries

def ManifestHolds (store : IcebergStore) (metadata : IcebergTableMetadata)
    (predicates : List PushablePredicate) (manifest : ManifestListEntry) (part : SnapshotContent) : Prop :=
  ∃ entries, ListsFiles store manifest.manifestPath entries ∧
    entriesContent store metadata predicates manifest entries = .ok part

/-- The records of the manifest list and of every manifest make up this content. -/
def SnapshotHolds (store : IcebergStore) (metadata : IcebergTableMetadata)
    (predicates : List PushablePredicate) (path : String) (content : SnapshotContent) : Prop :=
  ∃ manifests parts, ListsManifests store path manifests ∧
    List.Forall₂ (ManifestHolds store metadata predicates) manifests parts ∧
    content = ⟨parts.flatMap SnapshotContent.dataFiles, parts.flatMap SnapshotContent.deletes⟩

def AvroStream.intact : AvroStream → Bool
  | .endOfFile => true
  | .decodeError => false
  | .record _ rest => intact rest

/-- Reading a container file meets no decode error. -/
def ReadIntact (store : IcebergStore) (path : String) : Prop :=
  ∀ bytes stream, store.readAllBytes path = .ok bytes → store.openAvroReader bytes = .ok stream →
    AvroStream.intact stream = true

theorem readIntact_of_read {store : IcebergStore} {path : String} {bytes : List UInt8} {stream : AvroStream}
    (isBytes : store.readAllBytes path = .ok bytes) (isStream : store.openAvroReader bytes = .ok stream)
    (intact : AvroStream.intact stream = true) : ReadIntact store path := by
  intro other otherStream isOther isOtherStream
  obtain rfl := Except.ok.inj (isBytes.symm.trans isOther)
  obtain rfl := Except.ok.inj (isStream.symm.trans isOtherStream)
  exact intact

/-- Neither the manifest list nor a manifest it lists meets a decode error. -/
def SnapshotIntact (store : IcebergStore) (path : String) : Prop :=
  ReadIntact store path ∧ ∀ manifests, ListsManifests store path manifests →
    ∀ manifest ∈ manifests, ReadIntact store manifest.manifestPath

section Records

variable {store : IcebergStore} {metadata : IcebergTableMetadata} {predicates : List PushablePredicate}
  {path : String} {record : AvroValue}

/-- Reading a required field gives what the field stands for. -/
theorem getRequired_eq_ok {α : Type} {kind fieldName debugName : String} {read : AvroValue → Option α}
    {StandsFor : AvroValue → α → Prop} {value : α}
    (reads : ∀ field value, read field = some value ↔ StandsFor field value) :
    getRequired kind read record fieldName debugName = .ok value ↔
      HasField StandsFor record fieldName value := by
  unfold getRequired HasField
  cases record with
  | record fields =>
    cases found : fields.lookup fieldName with
    | none => simp [getByName, found]
    | some field => cases readField : read (liveBranch field) <;> simp [getByName, found, ← reads, readField]
  | _ => simp [getByName]

theorem getRequiredInt_eq_ok {fieldName debugName : String} {value : Int32} :
    getRequiredInt record fieldName debugName = .ok value ↔ HasField IsInt record fieldName value := by
  refine getRequired_eq_ok (fun field value => ?_)
  cases field <;> simp [IsInt, eq_comm]

theorem getRequiredLong_eq_ok {fieldName debugName : String} {value : Int64} :
    getRequiredLong record fieldName debugName = .ok value ↔ HasField IsLong record fieldName value := by
  refine getRequired_eq_ok (fun field value => ?_)
  cases field <;> simp [IsLong, eq_comm]

theorem getRequiredString_eq_ok {fieldName debugName : String} {value : String} :
    getRequiredString record fieldName debugName = .ok value ↔ HasField IsText record fieldName value := by
  refine getRequired_eq_ok (fun field value => ?_)
  cases field <;> simp [IsText, eq_comm]

theorem decodePartitionStruct_eq_ok {debugName : String} {values : List PartitionFieldValue} :
    decodePartitionStruct record debugName = .ok values ↔
      ∃ field, getByName record "partition" = some field ∧ IsPartition field values := by
  unfold decodePartitionStruct
  cases getByName record "partition" with
  | none => simp
  | some field => cases field <;> simp [IsPartition, eq_comm]

theorem manifestListEntry_eq_ok {manifest : ManifestListEntry} :
    manifestListEntry record = .ok manifest ↔ DescribesManifest record manifest := by
  simp only [manifestListEntry, bind_eq_ok, pure_eq_ok, getRequiredInt_eq_ok, getRequiredLong_eq_ok,
    getRequiredString_eq_ok]
  constructor
  · rintro ⟨_, path, _, length, _, specId, _, content, _, snapshotId, rfl⟩
    exact ⟨path, length, specId, content, snapshotId⟩
  · rintro ⟨path, length, specId, content, snapshotId⟩
    exact ⟨_, path, _, length, _, specId, _, content, _, snapshotId, rfl⟩

theorem manifestDataFileEntry_eq_ok {entry : ManifestDataFileEntry} :
    manifestDataFileEntry record = .ok entry ↔ DescribesFile record entry := by
  simp only [manifestDataFileEntry, bind_eq_ok, getRequiredInt_eq_ok]
  constructor
  · rintro ⟨_, status, ran⟩
    split at ran
    · cases ran
    · rename_i dataFile isDataFile
      simp only [bind_eq_ok, pure_eq_ok, getRequiredString_eq_ok, getRequiredLong_eq_ok,
        decodePartitionStruct_eq_ok] at ran
      obtain ⟨_, path, _, format, _, recordCount, _, fileSize, _, partition, rfl⟩ := ran
      exact ⟨status, dataFile, isDataFile, path, format, recordCount, fileSize, partition, rfl⟩
  · rintro ⟨status, dataFile, isDataFile, path, format, recordCount, fileSize, partition, content⟩
    refine ⟨_, status, ?_⟩
    simp only [isDataFile, bind_eq_ok, pure_eq_ok, getRequiredString_eq_ok, getRequiredLong_eq_ok,
      decodePartitionStruct_eq_ok, ← content]
    exact ⟨_, path, _, format, _, recordCount, _, fileSize, _, partition, rfl⟩

theorem readEntries_ofRecords {α : Type} {entry : AvroValue → Except String α} {records : List AvroValue} :
    readEntries entry (AvroStream.ofRecords records) = records.mapM entry := by
  induction records with
  | nil => rfl
  | cons record rest hypothesis =>
    rw [List.mapM_cons, ← hypothesis]
    rfl

/-- The entries read from the records of a file are those the records describe. -/
theorem readEntries_eq_ok {α : Type} {entry : AvroValue → Except String α}
    {Describes : AvroValue → α → Prop} (reads : ∀ record described, entry record = .ok described ↔
      Describes record described) {records : List AvroValue} {entries : List α} :
    readEntries entry (AvroStream.ofRecords records) = .ok entries ↔ List.Forall₂ Describes records entries := by
  rw [readEntries_ofRecords, mapM_eq_ok, show Describes = fun record described => entry record = .ok described
    from funext₂ (fun record described => propext (reads record described).symm)]

theorem intact_iff {stream : AvroStream} :
    AvroStream.intact stream = true ↔ ∃ records, stream = AvroStream.ofRecords records := by
  constructor
  · intro intact
    induction stream with
    | endOfFile => exact ⟨[], rfl⟩
    | decodeError => cases intact
    | record value rest hypothesis =>
      obtain ⟨records, rfl⟩ := hypothesis intact
      exact ⟨value :: records, rfl⟩
  · rintro ⟨records, rfl⟩
    induction records with
    | nil => rfl
    | cons record rest hypothesis => exact hypothesis

/-- Entries are read from an intact file exactly where its records describe them. -/
theorem readEntries_intact {α : Type} {entry : AvroValue → Except String α}
    {Describes : AvroValue → α → Prop} (reads : ∀ record described, entry record = .ok described ↔
      Describes record described) {entries : List α} :
    (∃ records, HasRecords store path records ∧ List.Forall₂ Describes records entries) ↔
      (store.readAllBytes path >>= fun bytes => store.openAvroReader bytes >>= readEntries entry) =
        .ok entries ∧ ReadIntact store path := by
  simp only [bind_eq_ok]
  constructor
  · rintro ⟨records, ⟨bytes, bytesRan, opened⟩, described⟩
    refine ⟨⟨bytes, bytesRan, _, opened, (readEntries_eq_ok reads).mpr described⟩, ?_⟩
    intro other stream isOther isStream
    obtain rfl := Except.ok.inj (bytesRan.symm.trans isOther)
    exact intact_iff.mpr ⟨records, Except.ok.inj (isStream.symm.trans opened)⟩
  · rintro ⟨⟨bytes, bytesRan, stream, opened, entriesRan⟩, intact⟩
    obtain ⟨records, rfl⟩ := intact_iff.mp (intact bytes stream bytesRan opened)
    exact ⟨records, ⟨bytes, bytesRan, opened⟩, (readEntries_eq_ok reads).mp entriesRan⟩

theorem listsManifests_iff {manifests : List ManifestListEntry} :
    ListsManifests store path manifests ↔
      readManifestList store.toAvroStore path = .ok manifests ∧ ReadIntact store path :=
  readEntries_intact (fun _ _ => manifestListEntry_eq_ok)

theorem listsFiles_iff {entries : List ManifestDataFileEntry} :
    ListsFiles store path entries ↔
      readManifest store.toAvroStore path = .ok entries ∧ ReadIntact store path :=
  readEntries_intact (fun _ _ => manifestDataFileEntry_eq_ok)

theorem manifestHolds_eq :
    ManifestHolds store metadata predicates = fun manifest part =>
      ReadIntact store manifest.manifestPath ∧
        manifestContent store metadata predicates manifest = .ok part := by
  funext manifest part
  simp only [ManifestHolds, listsFiles_iff, manifestContent, bind_eq_ok, eq_iff_iff]
  constructor
  · rintro ⟨entries, ⟨entriesRan, intact⟩, partRan⟩
    exact ⟨intact, entries, entriesRan, partRan⟩
  · rintro ⟨intact, entries, entriesRan, partRan⟩
    exact ⟨entries, ⟨entriesRan, intact⟩, partRan⟩

/-- What is read from a snapshot is all that its records hold exactly when no read meets a decode error. -/
theorem snapshotHolds_iff {content : SnapshotContent} :
    SnapshotHolds store metadata predicates path content ↔
      snapshotContent store metadata predicates path = .ok content ∧ SnapshotIntact store path := by
  simp only [SnapshotHolds, SnapshotIntact, snapshotContent, bind_eq_ok, pure_eq_ok, mapM_eq_ok,
    listsManifests_iff, manifestHolds_eq, List.forall₂_and_left]
  constructor
  · rintro ⟨manifests, parts, ⟨manifestsRan, listIntact⟩, ⟨intact, partsRan⟩, rfl⟩
    refine ⟨⟨manifests, manifestsRan, parts, partsRan, rfl⟩, listIntact, fun others othersRan => ?_⟩
    obtain rfl := Except.ok.inj (manifestsRan.symm.trans othersRan.1)
    exact intact
  · rintro ⟨⟨manifests, manifestsRan, parts, partsRan, rfl⟩, listIntact, intact⟩
    exact ⟨manifests, parts, ⟨manifestsRan, listIntact⟩, ⟨intact manifests ⟨manifestsRan, listIntact⟩, partsRan⟩,
      rfl⟩

end Records

/-! ## Whole snapshots -/

/-- A resolved table holds every file that the records of the snapshot named by the metadata describe, that
belongs to the snapshot, and that is neither pruned nor fully deleted. Without a current snapshot it is empty. -/
def Complete (store : IcebergStore) (metadata : IcebergTableMetadata) (predicates : List PushablePredicate)
    (table : ResolvedTable) : Prop :=
  match metadata.currentSnapshotId with
  | none => table.files = []
  | some id => ∃ snapshot content,
      metadata.snapshots.find? (fun snapshot => snapshot.snapshotId = id) = some snapshot ∧
      SnapshotHolds store metadata predicates snapshot.manifestList content ∧
      ∃ kept, LosesNone store content table kept

/-- The metadata list the current snapshot, if there is one. -/
def SnapshotListed (metadata : IcebergTableMetadata) : Prop :=
  ∀ id, metadata.currentSnapshotId = some id → ∃ snapshot ∈ metadata.snapshots, snapshot.snapshotId = id

/-- The manifests of a snapshot are read whole, and its delete rows are counted rightly. -/
def WhollyRead (store : IcebergStore) (metadata : IcebergTableMetadata)
    (predicates : List PushablePredicate) (path : String) : Prop :=
  SnapshotIntact store path ∧
    ∀ content, SnapshotHolds store metadata predicates path content → ¬ Overcounted content

section Resolved

variable {store : IcebergStore} {metadata : IcebergTableMetadata} {predicates : List PushablePredicate}
  {table : ResolvedTable}

/-- A resolved table is complete exactly when its snapshot is listed and has been read whole. -/
theorem resolveIcebergTable_complete (ran : resolveIcebergTable store metadata predicates = .ok table) :
    Complete store metadata predicates table ↔
      SnapshotListed metadata ∧
        ∀ path, currentManifestList metadata = some path → WhollyRead store metadata predicates path := by
  unfold Complete SnapshotListed
  cases current : metadata.currentSnapshotId with
  | none =>
    have noPath : currentManifestList metadata = none := by simp [currentManifestList, current]
    have empty : table.files = [] := by
      simp only [resolveIcebergTable, bind_eq_ok, noPath, pure_eq_ok] at ran
      obtain ⟨_, _, rfl⟩ := ran
      rfl
    simp [noPath, empty]
  | some id =>
    simp only [Option.some.injEq, forall_eq']
    cases found : metadata.snapshots.find? (fun snapshot => snapshot.snapshotId = id) with
    | none =>
      have notListed : ¬ ∃ snapshot ∈ metadata.snapshots, snapshot.snapshotId = id := by
        simpa [List.find?_eq_none] using found
      simp [notListed]
    | some snapshot =>
      have isPath : currentManifestList metadata = some snapshot.manifestList := by
        simp [currentManifestList, current, found]
      obtain ⟨content, contentRan, inspected, enough⟩ := resolveIcebergTable_eq_ok ran isPath
      constructor
      · rintro ⟨other, whole, isOther, wholeRan, kept, losesNone⟩
        obtain rfl := Option.some.inj isOther
        obtain ⟨sameRan, intact⟩ := snapshotHolds_iff.mp wholeRan
        obtain rfl := Except.ok.inj (contentRan.symm.trans sameRan)
        refine ⟨⟨snapshot, List.mem_of_find?_eq_some found, by simpa using List.find?_some found⟩, ?_⟩
        intro path samePath
        obtain rfl := Option.some.inj (isPath.symm.trans samePath)
        refine ⟨intact, fun held isHeld => ?_⟩
        obtain rfl := Except.ok.inj (contentRan.symm.trans (snapshotHolds_iff.mp isHeld).1)
        exact not_overcounted_of_losesNone inspected losesNone
      · rintro ⟨-, wholly⟩
        obtain ⟨intact, notOvercounted⟩ := wholly _ isPath
        have whole := snapshotHolds_iff.mpr ⟨contentRan, intact⟩
        refine ⟨snapshot, content, rfl, whole, unnamed content, ?_⟩
        exact losesNone_of_not_overcounted inspected enough (notOvercounted content whole)

end Resolved

/-- Every read of the store ends with its file, and both rows of `b.parquet` are named. -/
theorem whollyRead_deletedStore : WhollyRead deletedStore ordersMetadata [] "list.avro" := by
  refine ⟨⟨readIntact_of_read rfl rfl rfl, fun manifests lists manifest member => ?_⟩, fun content holds => ?_⟩
  · obtain rfl := Except.ok.inj (listsManifests_iff.mp lists).1
    rcases List.mem_pair.mp member with rfl | rfl
    · exact readIntact_of_read rfl rfl rfl
    · exact readIntact_of_read rfl rfl rfl
  · obtain rfl := Except.ok.inj (snapshotHolds_iff.mp holds).1
    rintro ⟨dataFile, member, named, -, position, first, last, notDeleted⟩
    rcases List.mem_pair.mp member with rfl | rfl
    · exact named rfl
    · change position < 2 at last
      rcases (by omega : position = 0 ∨ position = 1) with rfl | rfl
      · exact notDeleted ⟨⟨some "b.parquet", some 0⟩, by decide, rfl⟩
      · exact notDeleted ⟨⟨some "b.parquet", some 1⟩, by decide, rfl⟩

theorem resolveIcebergTable_complete_deleted :
    ∃ table, resolveIcebergTable deletedStore ordersMetadata [] = .ok table ∧
      Complete deletedStore ordersMetadata [] table ∧ table.files.map FileMetadata.path = ["a.parquet"] := by
  refine ⟨_, rfl, (resolveIcebergTable_complete rfl).mpr ⟨fun id isCurrent => ?_, fun path isPath => ?_⟩, rfl⟩
  · obtain rfl := Option.some.inj isCurrent
    exact ⟨_, List.mem_singleton_self _, rfl⟩
  · obtain rfl := Option.some.inj isPath
    exact whollyRead_deletedStore

/-- The files behind the decode error are lost without an error. -/
theorem decode_error_loses_files :
    ¬ ∀ (store : IcebergStore) (metadata : IcebergTableMetadata) (predicates : List PushablePredicate)
        (table : ResolvedTable), resolveIcebergTable store metadata predicates = .ok table →
      Complete store metadata predicates table := by
  intro correct
  obtain ⟨snapshot, content, found, whole, -⟩ := correct brokenStore ordersMetadata [] _ rfl
  obtain rfl := Option.some.inj found
  obtain ⟨contentRan, -, intact⟩ := snapshotHolds_iff.mp whole
  have listed : ListsManifests brokenStore "list.avro" [⟨"data.avro", 0, 0, 0, 1⟩] :=
    listsManifests_iff.mpr ⟨rfl, readIntact_of_read rfl rfl rfl⟩
  exact absurd (intact _ listed _ (List.mem_cons_self ..) _ _ rfl rfl) (by decide)

end KernelLake.IcebergResolutionProofs
