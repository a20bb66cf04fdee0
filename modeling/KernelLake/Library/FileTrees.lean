import Mathlib.Data.List.Nodup
import Mathlib.Data.List.Infix
import Mathlib.Data.String.Basic

/-!
Trees of files and the texts that name their entries.

An entry is known by the names on the way to it from the root. A text is split at its slashes and followed
name by name; every entry on the way has to be a directory, so that one entry has many texts. There are no
symbolic links.
-/

namespace KernelLake.Library.FileTrees

/-! ## Trees -/

/-- The names on the way from the root. -/
abbrev Location := List String

inductive Kind
  | directory
  | file (size : UInt64)
  | other
deriving DecidableEq

/-- A name that a directory can give to an entry. -/
structure ProperName (name : String) : Prop where
  nonempty : name ≠ ""
  notSelf : name ≠ "."
  notParent : name ≠ ".."
  noSlash : '/' ∉ name.toList

/-- The entries below the root. -/
structure FileTree where
  entries : List (Location × Kind)
  distinct : (entries.map Prod.fst).Nodup
  proper : ∀ entry ∈ entries, ∀ name ∈ entry.1, ProperName name
  nested : ∀ entry ∈ entries, ∃ parent name, entry.1 = parent ++ [name] ∧
    (parent = [] ∨ (parent, Kind.directory) ∈ entries)

namespace FileTree

variable {tree : FileTree} {location : Location} {kind : Kind}

def kindOf (tree : FileTree) (location : Location) : Option Kind :=
  if location = [] then some .directory else (tree.entries.find? (·.1 = location)).map Prod.snd

theorem kindOf_nil : tree.kindOf [] = some .directory :=
  if_pos rfl

theorem not_root {entry : Location × Kind} (isEntry : entry ∈ tree.entries) : entry.1 ≠ [] := by
  obtain ⟨parent, name, same, -⟩ := tree.nested entry isEntry
  rw [same]
  exact List.concat_ne_nil name parent

theorem kindOf_entry {entry : Location × Kind} (isEntry : entry ∈ tree.entries) :
    tree.kindOf entry.1 = some entry.2 := by
  have found : (tree.entries.find? (·.1 = entry.1)).isSome := by
    rw [List.find?_isSome]
    exact ⟨entry, isEntry, by simp⟩
  obtain ⟨other, isOther⟩ := Option.isSome_iff_exists.1 found
  have same : other.1 = entry.1 := by simpa using List.find?_some isOther
  have equal : other = entry :=
    List.inj_on_of_nodup_map tree.distinct (List.mem_of_find?_eq_some isOther) isEntry same
  rw [kindOf, if_neg (not_root isEntry), isOther, equal]
  rfl

theorem entry_of_kindOf (isKind : tree.kindOf location = some kind) :
    location = [] ∧ kind = .directory ∨ (location, kind) ∈ tree.entries := by
  unfold kindOf at isKind
  split at isKind
  · rename_i root
    exact .inl ⟨root, (Option.some.inj isKind).symm⟩
  · obtain ⟨entry, isEntry, rfl⟩ := Option.map_eq_some_iff.1 isKind
    have same : entry.1 = location := by simpa using List.find?_some isEntry
    right
    rw [← same]
    exact List.mem_of_find?_eq_some isEntry

theorem kindOf_parent {parent : Location} {name : String}
    (present : (tree.kindOf (parent ++ [name])).isSome) : tree.kindOf parent = some .directory := by
  obtain ⟨kind, isKind⟩ := Option.isSome_iff_exists.1 present
  rcases entry_of_kindOf isKind with ⟨root, -⟩ | isEntry
  · exact absurd root (List.concat_ne_nil name parent)
  · obtain ⟨other, last, same, isDirectory⟩ := tree.nested _ isEntry
    obtain ⟨rfl, -⟩ := List.append_inj' same rfl
    rcases isDirectory with rfl | isDirectory
    · exact kindOf_nil
    · exact kindOf_entry isDirectory

theorem properName {parent : Location} {name : String}
    (present : (tree.kindOf (parent ++ [name])).isSome) : ProperName name := by
  obtain ⟨kind, isKind⟩ := Option.isSome_iff_exists.1 present
  rcases entry_of_kindOf isKind with ⟨root, -⟩ | isEntry
  · exact absurd root (List.concat_ne_nil name parent)
  · exact tree.proper _ isEntry name (by simp)

/-- The first entry on the way to one that is there is there too. -/
theorem kindOf_first {name : String} {rest : List String}
    (present : (tree.kindOf (location ++ name :: rest)).isSome) : (tree.kindOf (location ++ [name])).isSome := by
  induction rest using List.reverseRecOn with
  | nil => exact present
  | append_singleton rest last ih =>
    apply ih
    rw [← List.cons_append, ← List.append_assoc] at present
    rw [kindOf_parent present]
    rfl

/-! ## What lies below a directory -/

/-- The entries below a directory, by the names on the way from it. -/
def below (tree : FileTree) (directory : Location) : List (Location × Kind) :=
  (tree.entries.filter (fun entry => directory <+: entry.1 ∧ directory ≠ entry.1)).map
    (fun entry => (entry.1.drop directory.length, entry.2))

/-- The entries of a directory itself. -/
def children (tree : FileTree) (directory : Location) : List (Location × Kind) :=
  (tree.below directory).filter (fun entry => entry.1.length = 1)

theorem mem_below {directory : Location} {entry : Location × Kind} :
    entry ∈ tree.below directory ↔ entry.1 ≠ [] ∧ (directory ++ entry.1, entry.2) ∈ tree.entries := by
  obtain ⟨relative, kind⟩ := entry
  simp only [below, List.mem_map, List.mem_filter, decide_eq_true_eq, Prod.mk.injEq]
  constructor
  · rintro ⟨⟨location, kind⟩, ⟨isEntry, ⟨⟨rest, rfl⟩, different⟩⟩, rfl, rfl⟩
    rw [List.drop_left]
    refine ⟨?_, isEntry⟩
    rintro rfl
    exact different (List.append_nil _).symm
  · rintro ⟨nonempty, isEntry⟩
    refine ⟨_, ⟨isEntry, List.prefix_append _ _, ?_⟩, List.drop_left, rfl⟩
    intro same
    exact nonempty (List.append_right_eq_self.1 same.symm)

end FileTree

/-! ## Texts -/

/-- The parts of a text before and after the last separator. -/
def splitLast (separator : Char) : List Char → Option (List Char × List Char)
  | [] => none
  | first :: rest =>
    match splitLast separator rest with
    | some parts => some (first :: parts.1, parts.2)
    | none => if first = separator then some ([], rest) else none

theorem splitLast_some {separator : Char} {text : List Char} {parts : List Char × List Char}
    (split : splitLast separator text = some parts) : text = parts.1 ++ separator :: parts.2 := by
  induction text generalizing parts with
  | nil => cases split
  | cons first rest ih =>
    unfold splitLast at split
    cases later : splitLast separator rest with
    | some others =>
      rw [later] at split
      obtain rfl := Option.some.inj split
      rw [List.cons_append, ← ih later]
    | none =>
      rw [later] at split
      simp only at split
      split at split
      · rename_i same
        obtain rfl := Option.some.inj split
        rw [same, List.nil_append]
      · cases split

/-- The text of an entry of the directory with a text. -/
def joinPath (directory name : String) : String :=
  if directory = "" ∨ directory.toList.getLast? = some '/' then directory ++ name else directory ++ "/" ++ name

def components (path : String) : List String :=
  (path.toList.splitOn '/').map String.ofList

def isAbsolute (path : String) : Bool :=
  path.toList.head? = some '/'

theorem components_append_slash (path name : String) :
    components (path ++ "/" ++ name) = components path ++ components name := by
  have text : (path ++ "/" ++ name).toList = path.toList ++ '/' :: name.toList := by simp
  rw [components, text, List.splitOn_append_cons_self, List.map_append]
  rfl

theorem components_name {name : String} (noSlash : '/' ∉ name.toList) : components name = [name] := by
  rw [components, List.splitOn_eq_singleton noSlash]
  simp

/-- A text that ends with a slash has one more part, which is empty. -/
theorem joinPath_components {path : String} (nonempty : path ≠ "") (name : String) :
    components (joinPath path name) = components path ++ components name ∨
      ∃ before, components path = before ++ [""] ∧ components (joinPath path name) = before ++ components name := by
  unfold joinPath
  split
  · rename_i slash
    have last := slash.resolve_left nonempty
    obtain ⟨before, isBefore⟩ := List.getLast?_eq_some_iff.1 last
    have same : path = String.ofList before ++ "/" := by
      apply String.toList_injective
      simpa using isBefore
    right
    refine ⟨components (String.ofList before), ?_, ?_⟩
    · have empty := components_append_slash (String.ofList before) ""
      rw [String.append_empty] at empty
      rw [same, empty]
      rfl
    · rw [same, components_append_slash]
  · left
    rw [components_append_slash]

/-! ## Finding an entry -/

namespace FileTree

variable {tree : FileTree} {start location : Location}

/-- One part of a text: only a directory can be entered or left. -/
def enter (tree : FileTree) (location : Location) (component : String) : Option Location :=
  if tree.kindOf location = some .directory then
    if component = "" ∨ component = "." then some location
    else if component = ".." then some location.dropLast
    else if (tree.kindOf (location ++ [component])).isSome then some (location ++ [component])
    else none
  else none

/-- The entry that a text leads to. -/
def locate (tree : FileTree) (start : Location) (path : String) : Option Location :=
  if path = "" then none else (components path).foldlM tree.enter (if isAbsolute path then [] else start)

theorem enter_empty (isDirectory : tree.kindOf location = some .directory) :
    tree.enter location "" = some location := by
  rw [enter, if_pos isDirectory, if_pos (.inl rfl)]

theorem enter_name {name : String} (present : (tree.kindOf (location ++ [name])).isSome) :
    tree.enter location name = some (location ++ [name]) := by
  have proper := properName present
  rw [enter, if_pos (kindOf_parent present), if_neg (by simp [proper.nonempty, proper.notSelf]),
    if_neg proper.notParent, if_pos present]

theorem enter_of_empty {last : Location} (entered : tree.enter location "" = some last) : last = location := by
  unfold enter at entered
  split at entered
  · exact (Option.some.inj (by simpa using entered)).symm
  · cases entered

theorem isAbsolute_append {path rest : String} (nonempty : path ≠ "") :
    isAbsolute (path ++ rest) = isAbsolute path := by
  have present : path.toList ≠ [] := by simpa using nonempty
  rw [isAbsolute, isAbsolute, String.toList_append, List.head?_append_of_ne_nil _ present]

theorem joinPath_nonempty {path name : String} (nonempty : path ≠ "") : joinPath path name ≠ "" := by
  unfold joinPath
  split <;> simp [nonempty]

theorem isAbsolute_joinPath {path name : String} (nonempty : path ≠ "") :
    isAbsolute (joinPath path name) = isAbsolute path := by
  unfold joinPath
  split
  · exact isAbsolute_append nonempty
  · rw [String.append_assoc]
    exact isAbsolute_append nonempty

theorem nonempty_of_locate {path : String} (located : tree.locate start path = some location) : path ≠ "" := by
  rintro rfl
  cases located

/-- A text after the text of a directory is followed from the directory. -/
theorem follow_joinPath {path : String} (nonempty : path ≠ "") (name : String)
    (located : (components path).foldlM tree.enter start = some location) :
    (components (joinPath path name)).foldlM tree.enter start = (components name).foldlM tree.enter location := by
  rcases joinPath_components nonempty name with same | ⟨before, isPath, same⟩
  · rw [same, List.foldlM_append, located]
    rfl
  · rw [isPath, List.foldlM_append] at located
    rw [same, List.foldlM_append]
    obtain ⟨last, isLast, entered⟩ := Option.bind_eq_some_iff.1 located
    have stays : last = location := by
      have stayed : tree.enter last "" = some location := by simpa using entered
      exact (enter_of_empty stayed).symm
    rw [isLast, stays]
    rfl

/-- The text of an entry of a directory leads to the entry. -/
theorem locate_joinPath {path name : String} (located : tree.locate start path = some location)
    (present : (tree.kindOf (location ++ [name])).isSome) :
    tree.locate start (joinPath path name) = some (location ++ [name]) := by
  have nonempty := nonempty_of_locate located
  rw [locate, if_neg nonempty] at located
  rw [locate, if_neg (joinPath_nonempty nonempty), isAbsolute_joinPath nonempty, follow_joinPath nonempty name located,
    components_name (properName present).noSlash]
  simp [enter_name present]

theorem locate_joinPaths {path : String} {relative : Location} (located : tree.locate start path = some location)
    (present : (tree.kindOf (location ++ relative)).isSome) :
    tree.locate start (relative.foldl joinPath path) = some (location ++ relative) := by
  induction relative generalizing path location with
  | nil => simpa using located
  | cons name rest ih =>
    have first := locate_joinPath located (kindOf_first present)
    rw [List.append_cons] at present ⊢
    exact ih first present

/-- The text of an entry from the root. -/
def absoluteText (location : Location) : String :=
  location.foldl joinPath "/"

/-- The text that does not depend on where it is read. -/
def absolute (start : Location) (path : String) : String :=
  if isAbsolute path then path else joinPath (absoluteText start) path

theorem locate_root (start : Location) : tree.locate start "/" = some [] := by
  have two : components "/" = ["", ""] := by decide
  rw [locate, if_neg (by decide), two]
  simp [enter_empty kindOf_nil, isAbsolute]

theorem locate_absoluteText (other : Location) (isStart : (tree.kindOf start).isSome) :
    tree.locate other (absoluteText start) = some start := by
  have root : tree.locate other "/" = some [] := locate_root other
  have found : tree.locate other (absoluteText start) = some ([] ++ start) :=
    locate_joinPaths root (by rwa [List.nil_append])
  rwa [List.nil_append] at found

theorem nonempty_absoluteText (location : Location) : absoluteText location ≠ "" := by
  have keeps : ∀ path : String, path ≠ "" → location.foldl joinPath path ≠ "" := by
    induction location with
    | nil => exact fun _ => id
    | cons name rest ih =>
      intro path nonempty
      exact ih _ (joinPath_nonempty nonempty)
  exact keeps "/" (by decide)

theorem isAbsolute_absoluteText (location : Location) : isAbsolute (absoluteText location) = true := by
  have keeps : ∀ path : String, path ≠ "" → isAbsolute path = true →
      isAbsolute (location.foldl joinPath path) = true := by
    induction location with
    | nil => exact fun _ _ => id
    | cons name rest ih =>
      intro path nonempty begins
      exact ih _ (joinPath_nonempty nonempty) (by rwa [isAbsolute_joinPath nonempty])
  exact keeps "/" (by decide) (by decide)

/-- The absolute text of a path leads where the path leads. -/
theorem locate_absolute {path : String} (isStart : (tree.kindOf start).isSome)
    (located : tree.locate start path = some location) :
    tree.locate start (absolute start path) = some location := by
  have nonempty := nonempty_of_locate located
  unfold absolute
  split
  · exact located
  · rename_i relative
    have found : tree.locate start (absoluteText start) = some start :=
      locate_absoluteText start isStart
    rw [locate, if_neg (nonempty_absoluteText start), isAbsolute_absoluteText, if_pos rfl] at found
    rw [locate, if_neg nonempty, if_neg relative] at located
    rw [locate, if_neg (joinPath_nonempty (nonempty_absoluteText start)),
      isAbsolute_joinPath (nonempty_absoluteText start), isAbsolute_absoluteText, if_pos rfl,
      follow_joinPath (nonempty_absoluteText start) path found, located]

end FileTree

end KernelLake.Library.FileTrees
