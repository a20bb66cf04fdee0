import KernelLake.FileDiscoveryProofs
import Mathlib.Data.String.Basic

/-!
Sources of a local disk that overlap.

A file that is listed for several sources is returned once for each text that it is listed under. The text is
the source, followed by the names on the way from it, unless the source is the file: then it is made absolute.
-/

namespace KernelLake.FileDiscovery

open KernelLake.GlobMatching KernelLake.Library.FileTrees KernelLake.Library.Results

/-! ## URIs are returned once -/

theorem sortedByUri_sorted (files : List ObjectInfo) :
    (sortedByUri files).Pairwise (fun left right => left.uri ≤ right.uri) := by
  have total : Std.Total (fun left right : ObjectInfo => left.uri ≤ right.uri) :=
    ⟨fun left right => le_total left.uri right.uri⟩
  have transitive : IsTrans ObjectInfo (fun left right => left.uri ≤ right.uri) :=
    ⟨fun _ _ _ => le_trans⟩
  exact List.pairwise_insertionSort _ files

theorem unique_ascending {files : List ObjectInfo}
    (sorted : files.Pairwise (fun left right => left.uri ≤ right.uri)) :
    (unique files).Pairwise (fun left right => left.uri < right.uri) := by
  induction files with
  | nil => exact List.Pairwise.nil
  | cons first rest ih =>
    obtain ⟨least, sorted⟩ := List.pairwise_cons.1 sorted
    have ascending := ih sorted
    rw [unique]
    cases remaining : unique rest with
    | nil => simp
    | cons next others =>
      rw [remaining] at ascending
      obtain ⟨below, others⟩ := List.pairwise_cons.1 ascending
      simp only
      split
      · rename_i same
        apply List.Pairwise.cons _ others
        intro info member
        rw [same]
        exact below info member
      · rename_i different
        apply List.Pairwise.cons _ ascending
        have later : first.uri < next.uri := by
          have shown : next.uri ∈ rest.map ObjectInfo.uri := by
            rw [← uris_unique, remaining]
            simp
          obtain ⟨info, member, same⟩ := List.mem_map.1 shown
          have bound := least info member
          rw [same] at bound
          exact lt_of_le_of_ne bound different
        intro info member
        rcases List.mem_cons.1 member with rfl | member
        · exact later
        · exact later.trans (below info member)

theorem uris_nodup {store : ObjectStore} {sources : List String} {files : List ObjectInfo}
    (discovered : discoverParquetFilesRecursive store sources = .ok files) :
    files.Pairwise (fun left right => left.uri ≠ right.uri) := by
  unfold discoverParquetFilesRecursive at discovered
  split at discovered
  · cases discovered
  obtain ⟨all, -, rfl⟩ := map_ok discovered
  exact (unique_ascending (sortedByUri_sorted all)).imp fun ascending => ascending.ne

/-! ## The texts of files -/

namespace LocalDisk

variable {disk : LocalDisk} {denied : Denials}

/-- The directory that a source reads: the source itself, unless it is a pattern. -/
def directoryText (source : String) : String :=
  if hasGlobChars (filename source) then (if parentPath source = "" then "." else parentPath source) else source

/-- The text that a file is listed under for a source. -/
def spelling (disk : LocalDisk) (source : String) (file : Location) : String :=
  if disk.kind (directoryText source) = some .directory then
    (file.drop ((disk.locate (directoryText source)).getD []).length).foldl joinPath (directoryText source)
  else FileTree.absolute disk.currentPath source

/-- The files of the directory of a pattern that the pattern matches. -/
def Matched (disk : LocalDisk) (source : String) (file : Location) : Prop :=
  ∃ directory entry size, disk.locate (directoryText source) = some directory ∧
    entry ∈ disk.tree.children directory ∧ entry.2 = .file size ∧
    globMatch (bytes (filename source)) (bytes (entry.1.getLastD "")) = true ∧ directory ++ entry.1 = file

/-- The files that a source reads. A source that has wildcards only in the names before the last is not listed
with its tree. -/
def Reads (disk : LocalDisk) (store : ObjectStore) (call : Nat) (source : String) (file : Location) : Prop :=
  if hasGlobChars (filename source) then disk.Matched source file
  else if hasGlobChars source then
    disk.contents.IsDirectory source ∧ disk.contents.AtTop source file ∨
      ¬ disk.contents.IsDirectory source ∧ disk.locate source = some file
  else disk.contents.Covers store call source file

/-- The files of the directory with a text whose names are in the language of a pattern. -/
def InDirectory (disk : LocalDisk) (directory pattern : String) (file : Location) : Prop :=
  ∃ location entry size, disk.locate directory = some location ∧ entry ∈ disk.tree.children location ∧
    entry.2 = .file size ∧ globSymbols.Matches (bytes pattern) (bytes (entry.1.getLastD "")) ∧
    location ++ entry.1 = file

/-- The files that a source is about, whatever its listing comes to: those that a pattern describes, the Parquet
files anywhere below a directory, or the file that the source leads to. -/
def About (disk : LocalDisk) (source : String) (file : Location) : Prop :=
  if hasGlobChars (filename source) then disk.InDirectory (directoryText source) (filename source) file
  else if disk.kind source = some .directory then
    if hasGlobChars source then disk.InDirectory source "*.parquet" file else disk.contents.InTree source file
  else disk.locate source = some file

theorem directoryText_plain {source : String} (plain : hasGlobChars (filename source) = false) :
    directoryText source = source := by
  rw [directoryText, plain, if_neg Bool.false_ne_true]

theorem spelling_below {source : String} {directory : Location}
    (located : disk.locate (directoryText source) = some directory)
    (isDirectory : disk.tree.kindOf directory = some .directory) (relative : Location) :
    disk.spelling source (directory ++ relative) = relative.foldl joinPath (directoryText source) := by
  have isKind : disk.kind (directoryText source) = some .directory := by
    rw [kind, located]
    exact isDirectory
  rw [spelling, if_pos isKind, located, Option.getD_some, List.drop_left]

/-- A walk lists the wanted files under the texts that go on from the text of the directory. -/
theorem walk_spells {recursive : Bool} {wanted : String → Bool} {source : String} {results : List ObjectInfo}
    {directory : Location} (located : disk.locate (directoryText source) = some directory)
    (isDirectory : disk.tree.kindOf directory = some .directory)
    (walked : disk.walk denied recursive wanted (directoryText source) = .ok results) (uri : String) :
    uri ∈ (sortedByUri results).map ObjectInfo.uri ↔ ∃ file, (∃ entry size,
      entry ∈ (if recursive then disk.tree.below directory else disk.tree.children directory) ∧
        entry.2 = .file size ∧ wanted (entry.1.getLastD "") = true ∧ directory ++ entry.1 = file) ∧
      uri = disk.spelling source file := by
  obtain ⟨-, -, collected⟩ := bind_eq_ok.mp walked
  rw [located, Option.getD_some] at collected
  simp only [List.mem_map, mem_sortedByUri, examine_files collected]
  constructor
  · rintro ⟨info, ⟨entry, member, size, isFile, isWanted, rfl⟩, rfl⟩
    exact ⟨_, ⟨entry, size, member, isFile, isWanted, rfl⟩, (spelling_below located isDirectory entry.1).symm⟩
  · rintro ⟨file, ⟨entry, size, member, isFile, isWanted, rfl⟩, rfl⟩
    exact ⟨_, ⟨entry, member, size, isFile, isWanted, rfl⟩, (spelling_below located isDirectory entry.1).symm⟩

theorem listGlob_ok {source : String} {listed : List ObjectInfo}
    (isGlob : hasGlobChars (filename source) = true) (isListed : disk.list denied source = .ok listed) :
    ∃ directory results, disk.locate (directoryText source) = some directory ∧
      disk.tree.kindOf directory = some .directory ∧
      disk.walk denied false (fun name => globMatch (bytes (filename source)) (bytes name)) (directoryText source) =
        .ok results ∧ listed = sortedByUri results := by
  have text : directoryText source = if parentPath source = "" then "." else parentPath source := if_pos isGlob
  rw [list, if_pos isGlob, listGlob, ← text] at isListed
  obtain ⟨-, -, isListed⟩ := bind_eq_ok.mp isListed
  obtain ⟨-, -, isListed⟩ := bind_eq_ok.mp isListed
  split at isListed
  · cases isListed
  obtain ⟨-, -, isListed⟩ := bind_eq_ok.mp isListed
  split at isListed
  · cases isListed
  rename_i isKind
  obtain ⟨directory, located, isDirectory⟩ := locate_of_kind (not_not.1 isKind)
  obtain ⟨results, walked, same⟩ := listDirectoryMatching_ok isListed
  exact ⟨directory, results, located, isDirectory, walked, same⟩

theorem spelling_file {source : String} {location : Location} {size : UInt64}
    (plain : hasGlobChars (filename source) = false) (located : disk.locate source = some location)
    (isFile : disk.tree.kindOf location = some (.file size)) (file : Location) :
    disk.spelling source file = FileTree.absolute disk.currentPath source := by
  rw [spelling, directoryText_plain plain, kind, located]
  apply if_neg
  rw [Option.bind_some, isFile]
  simp

/-- What a flat listing of a source that is no pattern lists. -/
theorem list_spells {source : String} {listed : List ObjectInfo} (plain : hasGlobChars (filename source) = false)
    (isListed : disk.list denied source = .ok listed) (uri : String) :
    uri ∈ listed.map ObjectInfo.uri ↔ ∃ file,
      (disk.contents.IsDirectory source ∧ disk.contents.AtTop source file ∨
        ¬ disk.contents.IsDirectory source ∧ disk.locate source = some file) ∧ uri = disk.spelling source file := by
  have text := directoryText_plain plain
  rcases list_ok plain isListed with
    ⟨directory, results, located, isDirectory, walked, rfl⟩ | ⟨location, size, located, isFile, rfl⟩
  · rw [← text] at located walked
    rw [walk_spells located isDirectory walked]
    rw [text] at located
    simp only [isDirectory_iff located, isDirectory, true_and, not_true, false_and, or_false]
    simp [contents, located]
  · simp [isDirectory_iff located, isFile, located, spelling_file plain located isFile]

/-- A source is listed as the files it reads, under their texts. -/
theorem listed_spells {whenRecursive whenFlat : Nat → Denials} {call : Nat} {source : String}
    {listed : List ObjectInfo}
    (discovered : discoverSource (localStore disk whenRecursive whenFlat) call source = .ok listed) (uri : String) :
    uri ∈ listed.map ObjectInfo.uri ↔
      ∃ file, disk.Reads (localStore disk whenRecursive whenFlat) call source file ∧
        uri = disk.spelling source file := by
  unfold discoverSource at discovered
  unfold Reads
  cases isGlob : hasGlobChars (filename source) with
  | true =>
    have wild : hasGlobChars source = true := by
      by_contra plain
      rw [hasGlobChars_filename (Bool.not_eq_true _ ▸ plain)] at isGlob
      cases isGlob
    rw [if_pos wild] at discovered
    obtain ⟨found, isListed, checked⟩ := bind_eq_ok.mp discovered
    obtain rfl := checkAllParquet_ok checked
    obtain ⟨directory, results, located, isDirectory, walked, rfl⟩ := listGlob_ok isGlob isListed
    rw [walk_spells located isDirectory walked]
    simp [Matched, located]
  | false =>
    cases wild : hasGlobChars source with
    | true =>
      rw [if_pos wild] at discovered
      obtain ⟨found, isListed, checked⟩ := bind_eq_ok.mp discovered
      obtain rfl := checkAllParquet_ok checked
      rw [list_spells isGlob isListed]
      simp
    | false =>
      rw [wild, if_neg Bool.false_ne_true] at discovered
      cases attempt : (localStore disk whenRecursive whenFlat).listRecursive call source with
      | ok found =>
        rw [attempt] at discovered
        obtain rfl := checkAllParquet_ok discovered
        have granted : Contents.Granted (localStore disk whenRecursive whenFlat) call source := ⟨_, attempt⟩
        obtain ⟨directory, results, located, isDirectory, walked, rfl⟩ := listRecursive_ok attempt
        have text := directoryText_plain isGlob
        rw [← text] at located walked
        rw [walk_spells located isDirectory walked]
        rw [text] at located
        simp only [Contents.Covers, granted, isDirectory_iff located, isDirectory, true_and, not_true, false_and,
          and_false, or_false, Bool.false_eq_true, if_false]
        simp [contents, located]
      | error failure =>
        rw [attempt] at discovered
        have refused : ¬ Contents.Granted (localStore disk whenRecursive whenFlat) call source := by
          rintro ⟨found, isFound⟩
          rw [attempt] at isFound
          cases isFound
        cases failure with
        | filesystem message => cases discovered
        | storage message =>
          obtain ⟨found, isListed, checked⟩ := bind_eq_ok.mp discovered
          obtain rfl := checkAllParquet_ok checked
          rw [list_spells isGlob isListed]
          simp [Contents.Covers, refused]
          rfl

/-- The text that a file is listed under leads to the file. -/
theorem spelling_leads {store : ObjectStore} {call : Nat} {source : String} {file : Location}
    (reads : disk.Reads store call source file) : disk.locate (disk.spelling source file) = some file := by
  have inside {directory : Location} {entry : Location × Kind}
      (located : disk.locate (directoryText source) = some directory)
      (isBelow : entry ∈ disk.tree.below directory) :
      disk.locate (disk.spelling source (directory ++ entry.1)) = some (directory ++ entry.1) := by
    obtain ⟨nonempty, isEntry⟩ := FileTree.mem_below.1 isBelow
    have present : (disk.tree.kindOf (directory ++ entry.1)).isSome := by
      rw [FileTree.kindOf_entry isEntry]
      rfl
    have isDirectory : disk.tree.kindOf directory = some .directory := by
      cases names : entry.1 with
      | nil => exact absurd names nonempty
      | cons name rest =>
        rw [names] at present
        exact FileTree.kindOf_parent (FileTree.kindOf_first present)
    rw [spelling_below located isDirectory]
    exact FileTree.locate_joinPaths located present
  have itself (plain : hasGlobChars (filename source) = false) (notDirectory : ¬ disk.contents.IsDirectory source)
      (located : disk.locate source = some file) : disk.locate (disk.spelling source file) = some file := by
    have notKind : ¬ disk.kind source = some .directory := notDirectory
    rw [spelling, directoryText_plain plain, if_neg notKind]
    exact locate_absolute located
  have top (plain : hasGlobChars (filename source) = false) (atTop : disk.contents.AtTop source file) :
      disk.locate (disk.spelling source file) = some file := by
    obtain ⟨directory, entry, size, located, isChild, -, -, rfl⟩ := atTop
    rw [← directoryText_plain plain] at located
    exact inside located (List.mem_of_mem_filter isChild)
  unfold Reads at reads
  split at reads
  · obtain ⟨directory, entry, size, located, isChild, -, -, rfl⟩ := reads
    exact inside located (List.mem_of_mem_filter isChild)
  rename_i isPlain
  have plain : hasGlobChars (filename source) = false := Bool.eq_false_iff.2 isPlain
  split at reads
  · rcases reads with ⟨-, atTop⟩ | ⟨notDirectory, located⟩
    · exact top plain atTop
    · exact itself plain notDirectory located
  · rcases reads with ⟨-, -, inTree⟩ | ⟨-, -, atTop⟩ | ⟨notDirectory, located⟩
    · obtain ⟨directory, entry, size, located, isBelow, -, -, rfl⟩ := inTree
      rw [← directoryText_plain plain] at located
      exact inside located isBelow
    · exact top plain atTop
    · exact itself plain notDirectory located

/-! ## Overlapping sources -/

/-- Exactly one of the files returned is the file that a source is about. -/
def ReadsOnce (disk : LocalDisk) (sources : List String) (files : List ObjectInfo) : Prop :=
  ∀ source ∈ sources, ∀ file, disk.About source file →
    (files.filter (fun info => disk.locate info.uri = some file)).length = 1

/-- A file that a source is about is listed, for this source or for another, and sources that list it do so under
one text. -/
structure ListedAlike (disk : LocalDisk) (store : ObjectStore) (sources : List String) : Prop where
  covered : ∀ source ∈ sources, ∀ file, disk.About source file →
    ∃ other name, sources[other]? = some name ∧ disk.Reads store other name file
  alike : ∀ about ∈ sources, ∀ file, disk.About about file → ∀ call source other name,
    sources[call]? = some source → sources[other]? = some name →
    disk.Reads store call source file → disk.Reads store other name file →
    disk.spelling source file = disk.spelling name file

/-- A list without duplicates whose members all agree has one. -/
theorem length_one_iff {files : List ObjectInfo} (distinct : files.Pairwise (fun left right => left.uri ≠ right.uri))
    (uri : String) (present : uri ∈ files.map ObjectInfo.uri) :
    files.length = 1 ↔ ∀ other ∈ files.map ObjectInfo.uri, other = uri := by
  constructor
  · intro single
    obtain ⟨info, rfl⟩ := List.length_eq_one_iff.1 single
    simp only [List.map_cons, List.map_nil, List.mem_singleton] at present ⊢
    exact fun other same => same.trans present.symm
  · intro agree
    cases files with
    | nil => cases present
    | cons first rest =>
      cases rest with
      | nil => rfl
      | cons second rest =>
        have different := (List.pairwise_cons.1 distinct).1 second List.mem_cons_self
        exact absurd ((agree first.uri (by simp)).trans (agree second.uri (by simp)).symm) different

/-- The URIs that are returned are the texts of the files that the sources read. -/
theorem uris_spelled {whenRecursive whenFlat : Nat → Denials} {sources : List String} {files : List ObjectInfo}
    (discovered : discoverParquetFilesRecursive (localStore disk whenRecursive whenFlat) sources = .ok files)
    (uri : String) :
    uri ∈ files.map ObjectInfo.uri ↔ ∃ call source file, sources[call]? = some source ∧
      disk.Reads (localStore disk whenRecursive whenFlat) call source file ∧ uri = disk.spelling source file := by
  rw [Contents.uris_discovered discovered]
  constructor
  · rintro ⟨call, source, listed, isSource, isListed, member⟩
    obtain ⟨file, reads, same⟩ := (listed_spells isListed uri).1 member
    exact ⟨call, source, file, isSource, reads, same⟩
  · rintro ⟨call, source, file, isSource, reads, same⟩
    obtain ⟨listed, isListed⟩ := Contents.source_listed discovered isSource
    exact ⟨call, source, listed, isSource, isListed, (listed_spells isListed uri).2 ⟨file, reads, same⟩⟩

/-- Those of them that lead to one file. -/
theorem uris_leading {whenRecursive whenFlat : Nat → Denials} {sources : List String} {files : List ObjectInfo}
    (discovered : discoverParquetFilesRecursive (localStore disk whenRecursive whenFlat) sources = .ok files)
    (file : Location) (uri : String) :
    uri ∈ (files.filter (fun info => disk.locate info.uri = some file)).map ObjectInfo.uri ↔
      ∃ call source, sources[call]? = some source ∧
        disk.Reads (localStore disk whenRecursive whenFlat) call source file ∧ uri = disk.spelling source file := by
  have separate : uri ∈ (files.filter (fun info => disk.locate info.uri = some file)).map ObjectInfo.uri ↔
      uri ∈ files.map ObjectInfo.uri ∧ disk.locate uri = some file := by
    simp only [List.mem_map, List.mem_filter, decide_eq_true_eq]
    constructor
    · rintro ⟨info, ⟨member, leads⟩, rfl⟩
      exact ⟨⟨info, member, rfl⟩, leads⟩
    · rintro ⟨⟨info, member, rfl⟩, leads⟩
      exact ⟨info, ⟨member, leads⟩, rfl⟩
  rw [separate, uris_spelled discovered]
  constructor
  · rintro ⟨⟨call, source, other, isSource, reads, rfl⟩, leads⟩
    obtain rfl := Option.some.inj ((spelling_leads reads).symm.trans leads)
    exact ⟨call, source, isSource, reads, rfl⟩
  · rintro ⟨call, source, isSource, reads, rfl⟩
    exact ⟨⟨call, source, file, isSource, reads, rfl⟩, spelling_leads reads⟩

/-- The files that sources of a local disk are about are returned once each when and only when all of them are
listed, and sources that list the same file do so under the same text. -/
theorem discover_once_iff {disk : LocalDisk} {whenRecursive whenFlat : Nat → Denials} {sources : List String}
    {files : List ObjectInfo}
    (discovered : discoverParquetFilesRecursive (localStore disk whenRecursive whenFlat) sources = .ok files) :
    disk.ReadsOnce sources files ↔ disk.ListedAlike (localStore disk whenRecursive whenFlat) sources := by
  have leading := uris_leading discovered
  have single (file : Location) (uri : String) :=
    length_one_iff ((uris_nodup discovered).filter (fun info => disk.locate info.uri = some file)) uri
  constructor
  · intro once
    constructor
    · intro source member file about
      -- The one file that is returned has been listed for some source.
      obtain ⟨info, isInfo⟩ := List.length_eq_one_iff.1 (once source member file about)
      obtain ⟨other, name, isName, reads, -⟩ := (leading file info.uri).1 (by rw [isInfo]; simp)
      exact ⟨other, name, isName, reads⟩
    · intro about member file isAbout call source other name isSource isName reads alsoReads
      have present := (leading file _).2 ⟨call, source, isSource, reads, rfl⟩
      have alone := (single file _ present).1 (once about member file isAbout)
      exact (alone _ ((leading file _).2 ⟨other, name, isName, alsoReads, rfl⟩)).symm
  · intro listed source member file about
    obtain ⟨call, reader, isReader, reads⟩ := listed.covered source member file about
    rw [single file _ ((leading file _).2 ⟨call, reader, isReader, reads, rfl⟩)]
    intro uri isUri
    obtain ⟨other, name, isName, alsoReads, rfl⟩ := (leading file uri).1 isUri
    exact listed.alike source member file about other name call reader isName isReader alsoReads reads

theorem discover_once_nested :
    nestedDisk.ReadsOnce ["d", "d/a.parquet"] [⟨"/d/a.parquet", 1⟩, ⟨"d/a.parquet", 1⟩, ⟨"d/sub/b.parquet", 2⟩] ↔
      nestedDisk.ListedAlike (localStore nestedDisk (fun _ => nothingDenied) (fun _ => nothingDenied))
        ["d", "d/a.parquet"] :=
  discover_once_iff (by rfl)

/-- A file that is named beside its directory is returned twice. -/
theorem discover_repeats_named : ∃ (disk : LocalDisk) (whenRecursive whenFlat : Nat → Denials)
    (sources : List String) (files : List ObjectInfo),
      discoverParquetFilesRecursive (localStore disk whenRecursive whenFlat) sources = .ok files ∧
      ¬ disk.ReadsOnce sources files := by
  refine ⟨nestedDisk, fun _ => nothingDenied, fun _ => nothingDenied, ["d", "d/a.parquet"],
    [⟨"/d/a.parquet", 1⟩, ⟨"d/a.parquet", 1⟩, ⟨"d/sub/b.parquet", 2⟩], by rfl, ?_⟩
  intro once
  have about : nestedDisk.About "d/a.parquet" ["d", "a.parquet"] := by
    have plain : ¬ hasGlobChars (filename "d/a.parquet") = true := by decide
    have notDirectory : nestedDisk.kind "d/a.parquet" ≠ some .directory := by decide
    rw [About, if_neg plain, if_neg notDirectory]
    rfl
  exact absurd (once "d/a.parquet" (by simp) ["d", "a.parquet"] about) (by decide)

end LocalDisk

end KernelLake.FileDiscovery
