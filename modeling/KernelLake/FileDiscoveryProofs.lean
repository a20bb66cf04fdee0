import KernelLake.FileDiscovery
import KernelLake.Library.Results

/-!
Which files a discovery that returns has.

What a source covers is a matter of the tree and of whether the listing of the source with its whole tree was
granted. A directory whose listing was refused is covered only as far as its own entries.
-/

namespace KernelLake.FileDiscovery

open KernelLake.GlobMatching KernelLake.Library.FileTrees KernelLake.Library.Results

/-! ## Lists of files -/

theorem uris_unique (files : List ObjectInfo) (uri : String) :
    uri ∈ (unique files).map ObjectInfo.uri ↔ uri ∈ files.map ObjectInfo.uri := by
  induction files with
  | nil => rfl
  | cons first rest ih =>
    rw [List.map_cons, List.mem_cons, ← ih, unique]
    cases remaining : unique rest with
    | nil => simp
    | cons next others =>
      simp only
      split
      · rename_i same
        simp [same]
      · simp

theorem uris_sortedDeduped (files : List ObjectInfo) (uri : String) :
    uri ∈ (sortedDeduped files).map ObjectInfo.uri ↔ uri ∈ files.map ObjectInfo.uri := by
  rw [sortedDeduped, uris_unique]
  exact ((List.perm_insertionSort _ files).map _).mem_iff

theorem checkAllParquet_ok {files listed : List ObjectInfo} (checked : checkAllParquet files = .ok listed) :
    listed = files := by
  unfold checkAllParquet at checked
  split at checked
  · cases checked
  · exact (Except.ok.inj checked).symm

theorem map_ok {α β ε : Type} {action : Except ε α} {change : α → β} {result : β}
    (done : action.map change = .ok result) : ∃ value, action = .ok value ∧ change value = result := by
  cases action with
  | error failure => cases done
  | ok value => exact ⟨value, rfl, Except.ok.inj done⟩

theorem mem_collect {α β ε : Type} {examine : α → Except ε (Option β)} {entries : List α} {results : List β}
    (collected : collect examine entries = .ok results) (result : β) :
    result ∈ results ↔ ∃ entry ∈ entries, examine entry = .ok (some result) := by
  induction entries generalizing results with
  | nil =>
    obtain rfl := Except.ok.inj collected
    simp
  | cons entry rest ih =>
    obtain ⟨own, isOwn, collected⟩ := bind_eq_ok.mp collected
    obtain ⟨others, isOthers, same⟩ := bind_eq_ok.mp collected
    obtain rfl := Except.ok.inj same
    rw [List.mem_append, ih isOthers]
    simp only [List.mem_cons, exists_eq_or_imp, isOwn, Except.ok.injEq, Option.mem_toList]

theorem collect_ok {α β ε : Type} {examine : α → Except ε (Option β)} {entries : List α} {results : List β}
    (collected : collect examine entries = .ok results) {entry : α} (member : entry ∈ entries) :
    ∃ result, examine entry = .ok result := by
  induction entries generalizing results with
  | nil => cases member
  | cons first rest ih =>
    obtain ⟨own, isOwn, collected⟩ := bind_eq_ok.mp collected
    obtain ⟨others, isOthers, -⟩ := bind_eq_ok.mp collected
    rcases List.mem_cons.1 member with rfl | member
    · exact ⟨own, isOwn⟩
    · exact ih isOthers member

/-! ## What the sources cover -/

/-- The files that sources are about. -/
structure Contents (File : Type) where
  /-- The file that a URI leads to. -/
  denotes : String → Option File
  IsDirectory : String → Prop
  /-- The Parquet files anywhere below a directory. -/
  InTree : String → File → Prop
  /-- The files of a directory itself that its flat listing shows. -/
  AtTop : String → File → Prop

namespace Contents

variable {File : Type} (contents : Contents File) (store : ObjectStore)

/-- The whole tree of every directory among the sources is there. -/
def Complete (sources : List String) (files : List ObjectInfo) : Prop :=
  ∀ source ∈ sources, contents.IsDirectory source → ∀ file, contents.InTree source file →
    ∃ info ∈ files, contents.denotes info.uri = some file

def Granted (call : Nat) (source : String) : Prop :=
  ∃ listed, store.listRecursive call source = .ok listed

/-- A directory covers its tree when the listing is granted and else its own entries. Any other source covers
the file that it leads to. -/
def Covers (call : Nat) (source : String) (file : File) : Prop :=
  contents.IsDirectory source ∧ Granted store call source ∧ contents.InTree source file ∨
    contents.IsDirectory source ∧ ¬ Granted store call source ∧ contents.AtTop source file ∨
    ¬ contents.IsDirectory source ∧ contents.denotes source = some file

/-- What lies below a directory whose listing was refused is covered by one of the sources. -/
def RefusalsCovered (sources : List String) : Prop :=
  ∀ call source, sources[call]? = some source → contents.IsDirectory source → ¬ Granted store call source →
    ∀ file, contents.InTree source file →
      ∃ other name, sources[other]? = some name ∧ contents.Covers store other name file

/-- The store lists what the sources cover. -/
structure Lists : Prop where
  granted : ∀ {call source listed}, store.listRecursive call source = .ok listed →
    contents.IsDirectory source ∧
      ∀ file, (∃ info ∈ listed, contents.denotes info.uri = some file) ↔ contents.InTree source file
  flat : ∀ {call source listed}, hasGlobChars source = false → contents.IsDirectory source →
    store.list call source = .ok listed →
      ∀ file, (∃ info ∈ listed, contents.denotes info.uri = some file) ↔ contents.AtTop source file
  exact : ∀ {call source listed}, hasGlobChars source = false → ¬ contents.IsDirectory source →
    store.list call source = .ok listed →
      ∀ file, (∃ info ∈ listed, contents.denotes info.uri = some file) ↔ contents.denotes source = some file

variable {contents store}

theorem listed_covers (lists : contents.Lists store) {call : Nat} {source : String} {listed : List ObjectInfo}
    (plain : hasGlobChars source = false) (discovered : discoverSource store call source = .ok listed)
    (file : File) :
    (∃ info ∈ listed, contents.denotes info.uri = some file) ↔ contents.Covers store call source file := by
  rw [discoverSource, plain, if_neg Bool.false_ne_true] at discovered
  cases attempt : store.listRecursive call source with
  | ok found =>
    rw [attempt] at discovered
    obtain rfl := checkAllParquet_ok discovered
    obtain ⟨isDirectory, shows⟩ := lists.granted attempt
    have granted : Granted store call source := ⟨_, attempt⟩
    rw [shows, Covers]
    simp [isDirectory, granted]
  | error failure =>
    rw [attempt] at discovered
    have refused : ¬ Granted store call source := by
      rintro ⟨found, isFound⟩
      rw [attempt] at isFound
      cases isFound
    cases failure with
    | filesystem message => cases discovered
    | storage message =>
      obtain ⟨found, isFound, checked⟩ := bind_eq_ok.mp discovered
      obtain rfl := checkAllParquet_ok checked
      by_cases isDirectory : contents.IsDirectory source
      · rw [lists.flat plain isDirectory isFound, Covers]
        simp [isDirectory, refused]
      · rw [lists.exact plain isDirectory isFound, Covers]
        simp [isDirectory]

theorem mem_discoverSources {store : ObjectStore} {sources : List String} {call : Nat} {files : List ObjectInfo}
    (discovered : discoverSources store call sources = .ok files) (info : ObjectInfo) :
    info ∈ files ↔ ∃ place source listed, sources[place]? = some source ∧
      discoverSource store (call + place) source = .ok listed ∧ info ∈ listed := by
  induction sources generalizing call files with
  | nil =>
    obtain rfl := Except.ok.inj discovered
    simp
  | cons source rest ih =>
    obtain ⟨listed, isListed, discovered⟩ := bind_eq_ok.mp discovered
    obtain ⟨others, isOthers, same⟩ := bind_eq_ok.mp discovered
    obtain rfl := Except.ok.inj same
    rw [List.mem_append, ih isOthers]
    constructor
    · rintro (own | ⟨place, other, found, isOther, isFound, member⟩)
      · exact ⟨0, source, listed, rfl, isListed, own⟩
      · refine ⟨place + 1, other, found, isOther, ?_, member⟩
        rwa [show call + (place + 1) = call + 1 + place by omega]
    · rintro ⟨place, other, found, isOther, isFound, member⟩
      cases place with
      | zero =>
        obtain rfl := Option.some.inj isOther
        rw [Nat.add_zero, isListed] at isFound
        obtain rfl := Except.ok.inj isFound
        exact .inl member
      | succ place =>
        refine .inr ⟨place, other, found, isOther, ?_, member⟩
        rwa [show call + 1 + place = call + (place + 1) by omega]

theorem discoverSource_ok {store : ObjectStore} {sources : List String} {call : Nat} {files : List ObjectInfo}
    (discovered : discoverSources store call sources = .ok files) {place : Nat} {source : String}
    (isSource : sources[place]? = some source) : ∃ listed, discoverSource store (call + place) source = .ok listed := by
  induction sources generalizing call files place with
  | nil => cases isSource
  | cons first rest ih =>
    obtain ⟨listed, isListed, discovered⟩ := bind_eq_ok.mp discovered
    obtain ⟨others, isOthers, -⟩ := bind_eq_ok.mp discovered
    cases place with
    | zero =>
      obtain rfl := Option.some.inj isSource
      exact ⟨listed, isListed⟩
    | succ place =>
      obtain ⟨found, isFound⟩ := ih isOthers isSource
      refine ⟨found, ?_⟩
      rwa [show call + (place + 1) = call + 1 + place by omega]

/-- Every source is listed when the discovery returns. -/
theorem source_listed {store : ObjectStore} {sources : List String} {files : List ObjectInfo}
    (discovered : discoverParquetFilesRecursive store sources = .ok files) {call : Nat} {source : String}
    (isSource : sources[call]? = some source) : ∃ listed, discoverSource store call source = .ok listed := by
  unfold discoverParquetFilesRecursive at discovered
  split at discovered
  · cases discovered
  obtain ⟨all, isAll, -⟩ := map_ok discovered
  obtain ⟨listed, isListed⟩ := discoverSource_ok isAll isSource
  exact ⟨listed, by rwa [Nat.zero_add] at isListed⟩

/-- The URIs that are returned are those that are listed for a source. -/
theorem uris_discovered {store : ObjectStore} {sources : List String} {files : List ObjectInfo}
    (discovered : discoverParquetFilesRecursive store sources = .ok files) (uri : String) :
    uri ∈ files.map ObjectInfo.uri ↔ ∃ call source listed, sources[call]? = some source ∧
      discoverSource store call source = .ok listed ∧ uri ∈ listed.map ObjectInfo.uri := by
  unfold discoverParquetFilesRecursive at discovered
  split at discovered
  · cases discovered
  obtain ⟨all, isAll, rfl⟩ := map_ok discovered
  rw [uris_sortedDeduped, List.mem_map]
  simp only [mem_discoverSources isAll, Nat.zero_add, List.mem_map]
  constructor
  · rintro ⟨info, ⟨call, source, listed, isSource, isListed, member⟩, rfl⟩
    exact ⟨call, source, listed, isSource, isListed, info, member, rfl⟩
  · rintro ⟨call, source, listed, isSource, isListed, info, member, rfl⟩
    exact ⟨info, ⟨call, source, listed, isSource, isListed, member⟩, rfl⟩

theorem discovered_covers (lists : contents.Lists store) {sources : List String} {files : List ObjectInfo}
    (plain : ∀ source ∈ sources, hasGlobChars source = false)
    (discovered : discoverParquetFilesRecursive store sources = .ok files) (file : File) :
    (∃ info ∈ files, contents.denotes info.uri = some file) ↔
      ∃ call source, sources[call]? = some source ∧ contents.Covers store call source file := by
  have uris := uris_discovered discovered
  constructor
  · rintro ⟨info, member, denoted⟩
    obtain ⟨call, source, listed, isSource, isListed, shown⟩ := (uris info.uri).1 (List.mem_map_of_mem member)
    obtain ⟨other, isOther, same⟩ := List.mem_map.1 shown
    refine ⟨call, source, isSource, ?_⟩
    rw [← listed_covers lists (plain source (List.mem_of_getElem? isSource)) isListed]
    exact ⟨other, isOther, by rw [same, denoted]⟩
  · rintro ⟨call, source, isSource, covers⟩
    obtain ⟨listed, isListed⟩ := source_listed discovered isSource
    rw [← listed_covers lists (plain source (List.mem_of_getElem? isSource)) isListed] at covers
    obtain ⟨info, member, denoted⟩ := covers
    obtain ⟨other, isOther, same⟩ := List.mem_map.1
      ((uris info.uri).2 ⟨call, source, listed, isSource, isListed, List.mem_map_of_mem member⟩)
    exact ⟨other, isOther, by rw [same, denoted]⟩

theorem complete_iff (lists : contents.Lists store) {sources : List String} {files : List ObjectInfo}
    (plain : ∀ source ∈ sources, hasGlobChars source = false)
    (discovered : discoverParquetFilesRecursive store sources = .ok files) :
    contents.Complete sources files ↔ contents.RefusalsCovered store sources := by
  have covers := discovered_covers lists plain discovered
  constructor
  · intro complete call source isSource isDirectory _ file inTree
    exact (covers file).1 (complete source (List.mem_of_getElem? isSource) isDirectory file inTree)
  · intro covered source member isDirectory file inTree
    obtain ⟨call, isSource⟩ := List.getElem?_of_mem member
    rw [covers]
    by_cases granted : Granted store call source
    · exact ⟨call, source, isSource, .inl ⟨isDirectory, granted, inTree⟩⟩
    · exact covered call source isSource isDirectory granted file inTree

end Contents

/-! ## The local store -/

namespace LocalDisk

variable {disk : LocalDisk} {denied : Denials}

/-- What a text of a disk is about. -/
def contents (disk : LocalDisk) : Contents Location where
  denotes := disk.locate
  IsDirectory source := disk.kind source = some .directory
  InTree source file := ∃ directory entry size, disk.locate source = some directory ∧
    entry ∈ disk.tree.below directory ∧ entry.2 = .file size ∧ extension (entry.1.getLastD "") = ".parquet" ∧
    directory ++ entry.1 = file
  AtTop source file := ∃ directory entry size, disk.locate source = some directory ∧
    entry ∈ disk.tree.children directory ∧ entry.2 = .file size ∧
    globMatch (bytes "*.parquet") (bytes (entry.1.getLastD "")) = true ∧ directory ++ entry.1 = file

theorem examine_some {recursive : Bool} {wanted : String → Bool} {directory : String} {entry : Location × Kind}
    {info : ObjectInfo} (examined : examine denied recursive wanted directory entry = .ok (some info)) :
    ∃ size, entry.2 = .file size ∧ wanted (entry.1.getLastD "") = true ∧
      info = ⟨entry.1.foldl joinPath directory, size⟩ := by
  obtain ⟨-, -, examined⟩ := bind_eq_ok.mp examined
  cases isKind : entry.2 with
  | file size =>
    rw [isKind] at examined
    simp only at examined
    split at examined
    · rename_i isWanted
      obtain ⟨-, -, same⟩ := bind_eq_ok.mp examined
      exact ⟨size, rfl, isWanted, (Option.some.inj (Except.ok.inj same)).symm⟩
    · cases examined
  | directory =>
    rw [isKind] at examined
    cases recursive with
    | true =>
      simp only [if_true] at examined
      obtain ⟨-, -, same⟩ := bind_eq_ok.mp examined
      cases same
    | false => cases examined
  | other =>
    rw [isKind] at examined
    cases examined

theorem examine_files {recursive : Bool} {wanted : String → Bool} {directory : String}
    {entries : List (Location × Kind)} {results : List ObjectInfo}
    (collected : collect (examine denied recursive wanted directory) entries = .ok results) (info : ObjectInfo) :
    info ∈ results ↔ ∃ entry ∈ entries, ∃ size, entry.2 = .file size ∧ wanted (entry.1.getLastD "") = true ∧
      info = ⟨entry.1.foldl joinPath directory, size⟩ := by
  rw [mem_collect collected]
  constructor
  · rintro ⟨entry, member, examined⟩
    exact ⟨entry, member, examine_some examined⟩
  · rintro ⟨entry, member, size, isFile, isWanted, rfl⟩
    refine ⟨entry, member, ?_⟩
    obtain ⟨result, examined⟩ := collect_ok collected member
    rw [examined]
    unfold examine at examined
    obtain ⟨-, -, rest⟩ := bind_eq_ok.mp examined
    rw [isFile] at rest
    simp only [isWanted, if_true] at rest
    obtain ⟨-, -, same⟩ := bind_eq_ok.mp rest
    exact congrArg Except.ok (Except.ok.inj same).symm

/-- A walk that is not refused shows the wanted files by texts that lead to them. -/
theorem walk_shows {recursive : Bool} {wanted : String → Bool} {path : String} {results : List ObjectInfo}
    {directory : Location} (located : disk.locate path = some directory)
    (walked : disk.walk denied recursive wanted path = .ok results) (file : Location) :
    (∃ info ∈ results, disk.locate info.uri = some file) ↔
      ∃ entry size, entry ∈ (if recursive then disk.tree.below directory else disk.tree.children directory) ∧
        entry.2 = .file size ∧ wanted (entry.1.getLastD "") = true ∧ directory ++ entry.1 = file := by
  obtain ⟨-, -, collected⟩ := bind_eq_ok.mp walked
  rw [located, Option.getD_some] at collected
  have leads : ∀ entry ∈ (if recursive then disk.tree.below directory else disk.tree.children directory),
      disk.locate (entry.1.foldl joinPath path) = some (directory ++ entry.1) := by
    intro entry member
    have isBelow : entry ∈ disk.tree.below directory := by
      split at member
      · exact member
      · exact List.mem_of_mem_filter member
    have isEntry := (FileTree.mem_below.1 isBelow).2
    apply FileTree.locate_joinPaths located
    rw [FileTree.kindOf_entry isEntry]
    rfl
  constructor
  · rintro ⟨info, member, denoted⟩
    obtain ⟨entry, isEntry, size, isFile, isWanted, rfl⟩ := (examine_files collected info).1 member
    rw [leads entry isEntry] at denoted
    exact ⟨entry, size, isEntry, isFile, isWanted, Option.some.inj denoted⟩
  · rintro ⟨entry, size, isEntry, isFile, isWanted, rfl⟩
    exact ⟨_, (examine_files collected _).2 ⟨entry, isEntry, size, isFile, isWanted, rfl⟩, leads entry isEntry⟩

theorem converted_ok {message : String} {listing : Listing} {results : List ObjectInfo}
    (isOk : converted message listing = .ok results) : listing = .ok results := by
  unfold converted at isOk
  split at isOk
  · cases isOk
  · exact isOk

theorem notEmpty_ok {message : String} {files results : List ObjectInfo}
    (isOk : notEmpty message files = .ok results) : results = files := by
  unfold notEmpty at isOk
  split at isOk
  · cases isOk
  · exact (Except.ok.inj isOk).symm

theorem mem_sortedByUri {files : List ObjectInfo} {info : ObjectInfo} : info ∈ sortedByUri files ↔ info ∈ files :=
  (List.perm_insertionSort _ files).mem_iff

theorem isDirectory_of_quietly {path : String} (answered : disk.isDirectoryQuietly denied path = true) :
    disk.kind path = some .directory := by
  simpa using (Bool.and_eq_true_iff.1 answered).1

theorem locate_of_kind {path : String} {kind : Kind} (isKind : disk.kind path = some kind) :
    ∃ location, disk.locate path = some location ∧ disk.tree.kindOf location = some kind :=
  Option.bind_eq_some_iff.1 isKind

theorem hasGlobChars_of_suffix {part path : String} (suffix : part.toList <:+ path.toList)
    (plain : hasGlobChars path = false) : hasGlobChars part = false := by
  simp only [hasGlobChars, List.contains_eq_mem, Bool.or_eq_false_iff, decide_eq_false_iff_not] at plain ⊢
  exact ⟨fun member => plain.1 (suffix.subset member), fun member => plain.2 (suffix.subset member)⟩

/-- The last name of a path without wildcards has none. -/
theorem hasGlobChars_filename {path : String} (plain : hasGlobChars path = false) :
    hasGlobChars (filename path) = false := by
  apply hasGlobChars_of_suffix _ plain
  unfold filename
  cases found : splitLast '/' path.toList with
  | none => exact List.suffix_rfl
  | some parts =>
    rw [Option.map_some, Option.getD_some, String.toList_ofList]
    have text := splitLast_some found
    exact ⟨parts.1 ++ ['/'], by simp [text]⟩

/-- A recursive listing that returns is a walk through the tree of a directory. -/
theorem listRecursive_ok {path : String} {listed : List ObjectInfo}
    (isListed : disk.listRecursive denied path = .ok listed) :
    ∃ directory results, disk.locate path = some directory ∧ disk.tree.kindOf directory = some .directory ∧
      disk.walk denied true (fun name => extension name = ".parquet") path = .ok results ∧
      listed = sortedByUri results := by
  obtain ⟨-, -, isListed⟩ := bind_eq_ok.mp isListed
  split at isListed
  · split at isListed
    · rename_i answered
      obtain ⟨directory, located, isDirectory⟩ := locate_of_kind (isDirectory_of_quietly answered)
      obtain ⟨results, walked, checked⟩ := bind_eq_ok.mp isListed
      obtain ⟨found, isFound, rfl⟩ := map_ok checked
      obtain rfl := notEmpty_ok isFound
      exact ⟨directory, found, located, isDirectory, converted_ok walked, rfl⟩
    · cases isListed
  · cases isListed

theorem listDirectoryMatching_ok {directory pattern message : String} {listed : List ObjectInfo}
    (isListed : (disk.listDirectoryMatching denied directory pattern >>= notEmpty message) = .ok listed) :
    ∃ results, disk.walk denied false (fun name => globMatch (bytes pattern) (bytes name)) directory = .ok results ∧
      listed = sortedByUri results := by
  obtain ⟨results, matched, checked⟩ := bind_eq_ok.mp isListed
  obtain rfl := notEmpty_ok checked
  obtain ⟨found, walked, rfl⟩ := map_ok matched
  exact ⟨found, converted_ok walked, rfl⟩

/-- A flat listing that returns shows a directory itself, or it is the file under its absolute text. -/
theorem list_ok {path : String} {listed : List ObjectInfo} (plain : hasGlobChars (filename path) = false)
    (isListed : disk.list denied path = .ok listed) :
    (∃ directory results, disk.locate path = some directory ∧ disk.tree.kindOf directory = some .directory ∧
      disk.walk denied false (fun name => globMatch (bytes "*.parquet") (bytes name)) path = .ok results ∧
      listed = sortedByUri results) ∨
    (∃ location size, disk.locate path = some location ∧ disk.tree.kindOf location = some (.file size) ∧
      listed = [⟨FileTree.absolute disk.currentPath path, size⟩]) := by
  rw [list, if_neg (by simp [plain])] at isListed
  obtain ⟨-, -, isListed⟩ := bind_eq_ok.mp isListed
  split at isListed
  · split at isListed
    · rename_i answered
      obtain ⟨directory, located, isDirectory⟩ := locate_of_kind (isDirectory_of_quietly answered)
      obtain ⟨results, walked, same⟩ := listDirectoryMatching_ok isListed
      exact .inl ⟨directory, results, located, isDirectory, walked, same⟩
    · obtain ⟨size, isSize, same⟩ := bind_eq_ok.mp isListed
      obtain rfl := Except.ok.inj same
      obtain ⟨-, -, isSize⟩ := bind_eq_ok.mp isSize
      split at isSize
      · rename_i isKind
        obtain rfl := Except.ok.inj isSize
        obtain ⟨location, located, isFile⟩ := locate_of_kind isKind
        exact .inr ⟨location, _, located, isFile, rfl⟩
      · cases isSize
  · cases isListed

theorem isDirectory_iff {path : String} {location : Location} (located : disk.locate path = some location) :
    disk.contents.IsDirectory path ↔ disk.tree.kindOf location = some .directory := by
  simp [contents, kind, located]

theorem locate_absolute {path : String} {location : Location} (located : disk.locate path = some location) :
    disk.locate (FileTree.absolute disk.currentPath path) = some location := by
  have isCurrent : (disk.tree.kindOf disk.currentPath).isSome := by
    rw [disk.isCurrent]
    rfl
  exact FileTree.locate_absolute isCurrent located

theorem listRecursive_shows {path : String} {listed : List ObjectInfo}
    (isListed : disk.listRecursive denied path = .ok listed) :
    disk.contents.IsDirectory path ∧
      ∀ file, (∃ info ∈ listed, disk.contents.denotes info.uri = some file) ↔ disk.contents.InTree path file := by
  obtain ⟨directory, results, located, isDirectory, walked, rfl⟩ := listRecursive_ok isListed
  refine ⟨(isDirectory_iff located).2 isDirectory, fun file => ?_⟩
  simp only [mem_sortedByUri]
  refine (walk_shows located walked file).trans ?_
  simp [contents, located]

theorem list_shows_top {path : String} {listed : List ObjectInfo} (plain : hasGlobChars path = false)
    (isDirectory : disk.contents.IsDirectory path) (isListed : disk.list denied path = .ok listed)
    (file : Location) :
    (∃ info ∈ listed, disk.contents.denotes info.uri = some file) ↔ disk.contents.AtTop path file := by
  rcases list_ok (hasGlobChars_filename plain) isListed with
    ⟨directory, results, located, -, walked, rfl⟩ | ⟨location, size, located, isFile, -⟩
  · simp only [mem_sortedByUri]
    refine (walk_shows located walked file).trans ?_
    simp [contents, located]
  · rw [isDirectory_iff located, isFile] at isDirectory
    cases isDirectory

theorem list_shows_exact {path : String} {listed : List ObjectInfo} (plain : hasGlobChars path = false)
    (notDirectory : ¬ disk.contents.IsDirectory path) (isListed : disk.list denied path = .ok listed)
    (file : Location) :
    (∃ info ∈ listed, disk.contents.denotes info.uri = some file) ↔ disk.contents.denotes path = some file := by
  rcases list_ok (hasGlobChars_filename plain) isListed with
    ⟨directory, results, located, isDirectory, -⟩ | ⟨location, size, located, -, rfl⟩
  · exact absurd ((isDirectory_iff located).2 isDirectory) notDirectory
  · simp [contents, locate_absolute located, located]

theorem lists (disk : LocalDisk) (whenRecursive whenFlat : Nat → Denials) :
    disk.contents.Lists (localStore disk whenRecursive whenFlat) where
  granted := listRecursive_shows
  flat := list_shows_top
  exact := list_shows_exact

end LocalDisk

/-! ## Remote stores -/

theorem splitScheme_some {text before after : List Char} (split : splitScheme text = some (before, after)) :
    text = before ++ ':' :: '/' :: '/' :: after := by
  induction text generalizing before after with
  | nil => cases split
  | cons first text ih =>
    unfold splitScheme at split
    split at split
    · rename_i same
      obtain ⟨rfl, rfl⟩ := Prod.mk.inj (Option.some.inj split)
      exact same
    · rename_i same
      obtain ⟨rfl, rfl⟩ := List.cons.inj same
      obtain ⟨parts, isParts, both⟩ := Option.map_eq_some_iff.1 split
      obtain ⟨rfl, rfl⟩ := Prod.mk.inj both
      rw [List.cons_append, ← ih isParts]
    · rename_i same
      cases same

theorem splitScheme_append {text before after : List Char} (split : splitScheme text = some (before, after))
    (rest : List Char) : splitScheme (before ++ ':' :: '/' :: '/' :: rest) = some (before, rest) := by
  induction text generalizing before after with
  | nil => cases split
  | cons first text ih =>
    unfold splitScheme at split
    split at split
    · rename_i same
      obtain ⟨rfl, rfl⟩ := Prod.mk.inj (Option.some.inj split)
      rfl
    · rename_i notScheme same
      obtain ⟨rfl, rfl⟩ := List.cons.inj same
      obtain ⟨parts, isParts, both⟩ := Option.map_eq_some_iff.1 split
      obtain ⟨rfl, rfl⟩ := Prod.mk.inj both
      have later := ih isParts
      have whole := splitScheme_some isParts
      rw [List.cons_append, splitScheme, later]
      · rfl
      -- A scheme that began one character earlier would have been found there.
      intro others isColon same
      cases before : parts.1 with
      | nil => simp [before] at same
      | cons second between =>
        cases between with
        | nil => simp [before] at same
        | cons third between =>
          simp only [before, List.cons_append, List.cons.injEq] at same whole
          exact notScheme _ isColon (by rw [whole, same.1, same.2.1])
    · rename_i same
      cases same

/-- The text after the scheme of a URI, or the whole of a URI without one. -/
def pathOf (uri : String) : String :=
  ((splitScheme uri.toList).map (fun parts => String.ofList parts.2)).getD uri

theorem pathOf_scheme (uri path : String) : pathOf (scheme uri ++ "://" ++ path) = path := by
  have text : (scheme uri ++ "://" ++ path).toList = (scheme uri).toList ++ ':' :: '/' :: '/' :: path.toList := by
    simp
  rw [pathOf, text, scheme]
  cases found : splitScheme uri.toList with
  | none =>
    have split : splitScheme "file://".toList = some ("file".toList, []) := by decide
    rw [Option.map_none, Option.getD_none, splitScheme_append split]
    simp
  | some parts =>
    rw [Option.map_some, Option.getD_some, String.toList_ofList, splitScheme_append found]
    simp

namespace RemoteTree

variable {remote : RemoteTree} {refused : Refusals}

/-- What a URI of a remote tree is about. -/
def contents (remote : RemoteTree) : Contents String where
  denotes uri := some (pathOf uri)
  IsDirectory source := (remote.fileInfo (stripScheme source)).type = .directory
  InTree source file := ∃ entry ∈ remote.descendants (stripScheme source),
    entry.type = .file ∧ fileExtension entry.path = "parquet" ∧ entry.path = file
  AtTop source file := ∃ entry ∈ remote.children (stripScheme source),
    entry.type = .file ∧ fileExtension entry.path = "parquet" ∧ entry.path = file

theorem results_shows {uri message : String} {wanted : String → Bool} {entries : List FileInfo}
    {listed : List ObjectInfo} (isListed : remote.results uri message wanted entries = .ok listed) (file : String) :
    (∃ info ∈ listed, remote.contents.denotes info.uri = some file) ↔
      ∃ entry ∈ entries, entry.type = .file ∧ wanted entry.path = true ∧ entry.path = file := by
  unfold results at isListed
  simp only at isListed
  split at isListed
  · cases isListed
  obtain rfl := Except.ok.inj isListed
  simp only [LocalDisk.mem_sortedByUri, List.mem_map, List.mem_filter, decide_eq_true_eq, contents, Option.some.injEq]
  constructor
  · rintro ⟨info, ⟨entry, ⟨member, isFile, isWanted⟩, rfl⟩, same⟩
    rw [pathOf_scheme] at same
    exact ⟨entry, member, isFile, isWanted, same⟩
  · rintro ⟨entry, member, isFile, isWanted, same⟩
    exact ⟨_, ⟨entry, ⟨member, isFile, isWanted⟩, rfl⟩, by rw [pathOf_scheme, same]⟩

theorem inspect_ok {uri path : String} {info : FileInfo} (inspected : remote.inspect refused uri path = .ok info) :
    info = remote.fileInfo path := by
  unfold inspect at inspected
  split at inspected
  · cases inspected
  · exact (Except.ok.inj inspected).symm

theorem select_ok {uri path : String} {entries selected : List FileInfo}
    (isSelected : remote.select refused uri path entries = .ok selected) : selected = entries := by
  unfold select at isSelected
  split at isSelected
  · cases isSelected
  · exact (Except.ok.inj isSelected).symm

theorem stripScheme_suffix (uri : String) : (stripScheme uri).toList <:+ uri.toList := by
  unfold stripScheme
  split
  · exact List.suffix_rfl
  · cases found : splitScheme uri.toList with
    | none => exact List.suffix_rfl
    | some parts =>
      rw [Option.map_some, Option.getD_some, String.toList_ofList]
      have text := splitScheme_some found
      exact ⟨parts.1 ++ "://".toList, by simp [text]⟩

/-- The last name of the path of a URI without wildcards has none. -/
theorem hasGlobChars_lastComponent {uri : String} (plain : hasGlobChars uri = false) :
    hasGlobChars (splitLastComponent (stripScheme uri)).2 = false := by
  apply LocalDisk.hasGlobChars_of_suffix _ plain
  unfold splitLastComponent
  cases found : splitLast '/' (stripScheme uri).toList with
  | none => exact stripScheme_suffix uri
  | some parts =>
    have text := splitLast_some found
    apply List.IsSuffix.trans _ (stripScheme_suffix uri)
    rw [text]
    exact ⟨parts.1 ++ ['/'], by simp⟩

theorem listRecursive_shows {uri : String} {listed : List ObjectInfo}
    (isListed : remote.listRecursive refused uri = .ok listed) :
    remote.contents.IsDirectory uri ∧
      ∀ file, (∃ info ∈ listed, remote.contents.denotes info.uri = some file) ↔ remote.contents.InTree uri file := by
  obtain ⟨info, inspected, isListed⟩ := bind_eq_ok.mp isListed
  obtain rfl := inspect_ok inspected
  split at isListed
  · cases isListed
  split at isListed
  · rename_i isDirectory
    obtain ⟨entries, isSelected, found⟩ := bind_eq_ok.mp isListed
    obtain rfl := select_ok isSelected
    refine ⟨isDirectory, fun file => (results_shows found file).trans ?_⟩
    simp [contents]
  · cases isListed

theorem list_shows_top {uri : String} {listed : List ObjectInfo} (plain : hasGlobChars uri = false)
    (isDirectory : remote.contents.IsDirectory uri) (isListed : remote.list refused uri = .ok listed)
    (file : String) :
    (∃ info ∈ listed, remote.contents.denotes info.uri = some file) ↔ remote.contents.AtTop uri file := by
  unfold list at isListed
  simp only [hasGlobChars_lastComponent plain, Bool.false_eq_true, if_false] at isListed
  obtain ⟨info, inspected, isListed⟩ := bind_eq_ok.mp isListed
  obtain rfl := inspect_ok inspected
  split at isListed
  · cases isListed
  split at isListed
  · obtain ⟨entries, isSelected, found⟩ := bind_eq_ok.mp isListed
    obtain rfl := select_ok isSelected
    refine (results_shows found file).trans ?_
    simp [contents]
  · rename_i notDirectory
    exact absurd isDirectory notDirectory

theorem list_shows_exact {uri : String} {listed : List ObjectInfo} (plain : hasGlobChars uri = false)
    (notDirectory : ¬ remote.contents.IsDirectory uri) (isListed : remote.list refused uri = .ok listed)
    (file : String) :
    (∃ info ∈ listed, remote.contents.denotes info.uri = some file) ↔ remote.contents.denotes uri = some file := by
  unfold list at isListed
  simp only [hasGlobChars_lastComponent plain, Bool.false_eq_true, if_false] at isListed
  obtain ⟨info, inspected, isListed⟩ := bind_eq_ok.mp isListed
  obtain rfl := inspect_ok inspected
  split at isListed
  · cases isListed
  split at isListed
  · rename_i isDirectory
    exact absurd isDirectory notDirectory
  · obtain rfl := Except.ok.inj isListed
    simp

theorem lists (remote : RemoteTree) (whenRecursive whenFlat : Nat → Refusals) :
    remote.contents.Lists (genericStore remote whenRecursive whenFlat) := by
  constructor
  · intro call source listed isListed
    rw [genericStore] at isListed
    exact listRecursive_shows isListed
  · intro call source listed plain isDirectory isListed
    simp only [genericStore] at isListed
    exact list_shows_top plain isDirectory isListed
  · intro call source listed plain notDirectory isListed
    simp only [genericStore] at isListed
    exact list_shows_exact plain notDirectory isListed

end RemoteTree

/-! ## Discovery -/

/-- What is returned has the whole tree of every directory, on a local disk as in a remote store, when and only
when what lies below the directories whose listing was refused is covered by other sources or by what their flat
listing shows. -/
theorem discover_complete_iff {sources : List String} (plain : ∀ source ∈ sources, hasGlobChars source = false)
    (files : List ObjectInfo) :
    (∀ (disk : LocalDisk) (whenRecursive whenFlat : Nat → Denials),
      discoverParquetFilesRecursive (localStore disk whenRecursive whenFlat) sources = .ok files →
      (disk.contents.Complete sources files ↔
        disk.contents.RefusalsCovered (localStore disk whenRecursive whenFlat) sources)) ∧
    (∀ (remote : RemoteTree) (whenRecursive whenFlat : Nat → Refusals),
      discoverParquetFilesRecursive (genericStore remote whenRecursive whenFlat) sources = .ok files →
      (remote.contents.Complete sources files ↔
        remote.contents.RefusalsCovered (genericStore remote whenRecursive whenFlat) sources)) := by
  constructor
  · intro disk whenRecursive whenFlat discovered
    exact Contents.complete_iff (disk.lists whenRecursive whenFlat) plain discovered
  · intro remote whenRecursive whenFlat discovered
    exact Contents.complete_iff (remote.lists whenRecursive whenFlat) plain discovered

/-! ## A directory that is refused -/

/-- A Parquet file without a star in its name is shown by a flat listing. -/
theorem globMatch_parquet {stem : List UInt8} (noStar : globSymbols.many ∉ stem) :
    globMatch (bytes "*.parquet") (stem ++ bytes ".parquet") = true := by
  have pattern : bytes "*.parquet" = 42 :: bytes ".parquet" := by decide
  have letters : bytes ".parquet" = [46, 112, 97, 114, 113, 117, 101, 116] := by decide
  rw [globMatch_iff_alone, pattern, letters]
  refine ⟨stem :: [[46], [112], [97], [114], [113], [117], [101], [116]], ?_, by simp, ?_⟩
  · apply List.Forall₂.cons (globSymbols.replaces_many stem)
    repeat' constructor
  · refine ⟨fun _ begins => ?_, by simp [StandsAlone, globSymbols]⟩
    cases stem with
    | nil => cases begins
    | cons first others =>
      obtain rfl := Option.some.inj begins
      exact absurd List.mem_cons_self noStar

/-- A directory with a file, and a directory in it with another. -/
def nestedTree : FileTree where
  entries := [(["d"], .directory), (["d", "a.parquet"], .file 1), (["d", "sub"], .directory),
    (["d", "sub", "b.parquet"], .file 2)]
  distinct := by decide
  proper entry member name isName := by
    have known : name ∈ ["d", "a.parquet", "sub", "b.parquet"] := by
      simp only [List.mem_cons, List.not_mem_nil, or_false] at member
      rcases member with rfl | rfl | rfl | rfl <;> revert name <;> decide
    simp only [List.mem_cons, List.not_mem_nil, or_false] at known
    rcases known with rfl | rfl | rfl | rfl <;> constructor <;> decide
  nested := by
    simp only [List.forall_mem_cons]
    exact ⟨⟨[], "d", rfl, .inl rfl⟩, ⟨["d"], "a.parquet", rfl, .inr (by decide)⟩,
      ⟨["d"], "sub", rfl, .inr (by decide)⟩, ⟨["d", "sub"], "b.parquet", rfl, .inr (by decide)⟩, by simp⟩

def nestedDisk : LocalDisk where
  tree := nestedTree
  currentPath := []
  isCurrent := FileTree.kindOf_nil
  localRoot := "/"
  canonical path := "/" :: (components path).filter (· ≠ "")

def nothingDenied : Denials := fun _ _ => none

/-- The inner directory cannot be opened. -/
def innerDenied : Denials := fun query path =>
  if query = .openDirectory ∧ path = "d/sub" then some "Permission denied" else none

theorem nested_list : nestedDisk.list nothingDenied "d" = .ok [⟨"d/a.parquet", 1⟩] := by
  have walked {wanted : String → Bool} (isWanted : wanted "a.parquet" = true) :
      nestedDisk.walk nothingDenied false wanted "d" = .ok [⟨"d/a.parquet", 1⟩] := by
    change (do
      let result ← (if wanted "a.parquet" then pure (some ⟨"d/a.parquet", 1⟩) else pure none :
        Except Failure (Option ObjectInfo))
      pure (result.toList ++ [])) = _
    rw [isWanted]
    rfl
  have noStar : globSymbols.many ∉ ([97] : List UInt8) := by decide
  have shown : globMatch (bytes "*.parquet") (bytes "a.parquet") = true := globMatch_parquet noStar
  change (LocalDisk.converted "failed to list directory 'd': "
    (nestedDisk.walk nothingDenied false (fun name => globMatch (bytes "*.parquet") (bytes name)) "d")).map
    sortedByUri >>= LocalDisk.notEmpty "directory contains no Parquet files: 'd'" = _
  rw [walked shown]
  rfl

theorem nested_discovered :
    discoverParquetFilesRecursive (localStore nestedDisk (fun _ => innerDenied) (fun _ => nothingDenied)) ["d"] =
      .ok [⟨"d/a.parquet", 1⟩] := by
  change ((nestedDisk.list nothingDenied "d" >>= checkAllParquet) >>= fun listed => pure (listed ++ [])).map
    sortedDeduped = _
  rw [nested_list]
  rfl

theorem discover_complete_nested :
    nestedDisk.contents.Complete ["d"] [⟨"d/a.parquet", 1⟩] ↔ nestedDisk.contents.RefusalsCovered
      (localStore nestedDisk (fun _ => innerDenied) (fun _ => nothingDenied)) ["d"] :=
  (discover_complete_iff (by decide) [⟨"d/a.parquet", 1⟩]).1 nestedDisk _ _ nested_discovered

/-- The file of the directory is returned as if there were no other. -/
theorem discover_drops_nested : ∃ (disk : LocalDisk) (whenRecursive whenFlat : Nat → Denials)
    (sources : List String) (files : List ObjectInfo), (∀ source ∈ sources, hasGlobChars source = false) ∧
      discoverParquetFilesRecursive (localStore disk whenRecursive whenFlat) sources = .ok files ∧
      ¬ disk.contents.Complete sources files := by
  refine ⟨nestedDisk, fun _ => innerDenied, fun _ => nothingDenied, ["d"], _, by decide, nested_discovered, ?_⟩
  intro complete
  have nested : nestedDisk.contents.InTree "d" ["d", "sub", "b.parquet"] :=
    ⟨["d"], (["sub", "b.parquet"], .file 2), 2, by rfl, by decide, rfl, by decide, rfl⟩
  obtain ⟨info, member, denoted⟩ := complete "d" (by simp) (by rfl) _ nested
  obtain rfl := List.mem_singleton.1 member
  exact absurd denoted (by decide)

end KernelLake.FileDiscovery
