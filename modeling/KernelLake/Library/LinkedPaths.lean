import KernelLake.Library.FileTrees

/-!
Paths through trees with symbolic links.

A path is followed name by name, and the text of a link takes the place of its name, a bounded number of times.
A path can also be normalised by its text alone: then the name in front of `..` goes, whether it is a link or
not. Made canonical, a path names the entry that it leads to, or what would lie below the part of it that is there.
-/

namespace KernelLake.Library.LinkedPaths

open KernelLake.Library.FileTrees

/-! ## Trees -/

inductive Node
  | directory
  | file
  | link (target : String)
deriving DecidableEq

/-- The entries below the root; all but the root lie in directories. -/
structure LinkedTree where
  nodes : List (Location × Node)
  distinct : (nodes.map Prod.fst).Nodup
  proper : ∀ node ∈ nodes, ∀ name ∈ node.1, ProperName name
  nested : ∀ node ∈ nodes, node.1.dropLast = [] ∨ (node.1.dropLast, Node.directory) ∈ nodes

/-! ## Paths -/

/-- The elements of a path: the root, the names, and an empty name after a slash at the end. -/
def elements (path : String) : List String :=
  let names := (components path).filter (· ≠ "")
  (if isAbsolute path then ["/"] else []) ++ names ++
    (if names ≠ [] ∧ (components path).getLast? = some "" then [""] else [])

/-- Normalising reads an element: the names so far, and whether the last thing read was a directory by its text. -/
def normalStep (absolute : Bool) (state : List String × Bool) (element : String) : List String × Bool :=
  if element = "" ∨ element = "." then (state.1, true)
  else if element = ".." then
    if state.1 = [] ∧ absolute then ([], true)
    else if state.1 = [] ∨ state.1.getLast? = some ".." then (state.1 ++ [".."], false)
    else (state.1.dropLast, true)
  else (state.1 ++ [element], false)

def lexicallyNormal (path : List String) : List String :=
  let absolute := path.head? = some "/"
  let state := (if absolute then path.tail else path).foldl (normalStep absolute) ([], false)
  let trailing := if state.2 ∧ state.1 ≠ [] ∧ state.1.getLast? ≠ some ".." then [""] else []
  if path = [] then []
  else if absolute then "/" :: (state.1 ++ trailing)
  else if state.1 = [] then ["."]
  else state.1 ++ trailing

namespace LinkedTree

variable (tree : LinkedTree)

def nodeAt (location : Location) : Option Node :=
  if location = [] then some .directory else (tree.nodes.find? (·.1 = location)).map Prod.snd

/-- Follows names up to a link, and from there as it is told. -/
def walkWith (follow : Location → List String → Option Location) : Location → List String → Option Location
  | location, [] => some location
  | location, name :: rest =>
    if tree.nodeAt location ≠ some .directory then none
    else if name = "" ∨ name = "." then walkWith follow location rest
    else if name = ".." then walkWith follow location.dropLast rest
    else
      match tree.nodeAt (location ++ [name]) with
      | none => none
      | some (.link target) =>
        if target = "" then none
        else follow (if isAbsolute target then [] else location) (components target ++ rest)
      | some _ => walkWith follow (location ++ [name]) rest

/-- Follows names through at most so many links. -/
def walk : Nat → Location → List String → Option Location
  | 0 => tree.walkWith (fun _ _ => none)
  | links + 1 => tree.walkWith (walk links)

/-- The entry that the operating system reaches by a path. -/
def reach (current : Location) (path : List String) : Option Location :=
  match path with
  | [] => none
  | first :: names => if first = "/" then tree.walk 40 [] names else tree.walk 40 current (first :: names)

/-- The leading elements of a path that are there, and the others. -/
def existing (current : Location) : List String → List String → List String × List String
  | found, [] => (found, [])
  | found, element :: rest =>
    if (tree.reach current (found ++ [element])).isSome then existing current (found ++ [element]) rest
    else (found, element :: rest)

def canonical (current : Location) (path : List String) : List String :=
  match tree.reach current path with
  | some location => "/" :: location
  | none => []

def weaklyCanonical (current : Location) (path : List String) : List String :=
  match tree.reach current path with
  | some location => "/" :: location
  | none =>
    let parts := tree.existing current [] path
    lexicallyNormal (tree.canonical current parts.1 ++ parts.2)

end LinkedTree

/-! ## Empty paths -/

theorem elements_ne_nil {path : String} (nonempty : path ≠ "") : elements path ≠ [] := by
  unfold elements
  by_cases absolute : isAbsolute path = true
  · simp [absolute]
  · have named : (components path).filter (· ≠ "") ≠ [] := by
      cases text : path.toList with
      | nil => exact absurd (String.toList_injective text) nonempty
      | cons first rest =>
        have notSlash : (first == '/') = false := by
          by_contra slash
          exact absolute (by simpa [isAbsolute, text] using slash)
        cases later : rest.splitOn '/' with
        | nil => exact absurd later (List.splitOn_ne_nil '/' rest)
        | cons name names =>
          have isFirst : String.ofList (first :: name) ∈ components path := by
            rw [components, text, List.splitOn_cons_eq_if_modifyHead, if_neg (by simp [notSlash]), later]
            simp
          have notEmpty : String.ofList (first :: name) ≠ "" := by
            intro same
            have noCharacter := congrArg String.toList same
            simp at noCharacter
          exact List.ne_nil_of_mem (List.mem_filter.mpr ⟨isFirst, decide_eq_true notEmpty⟩)
    intro empty
    obtain ⟨front, -⟩ := List.append_eq_nil_iff.mp empty
    exact named (List.append_eq_nil_iff.mp front).2

theorem lexicallyNormal_ne_nil {path : List String} (nonempty : path ≠ []) : lexicallyNormal path ≠ [] := by
  unfold lexicallyNormal
  simp only [if_neg nonempty]
  split
  · exact List.cons_ne_nil _ _
  · split
    · exact List.cons_ne_nil _ _
    · rename_i someNames
      simp [someNames]

namespace LinkedTree

variable {tree : LinkedTree} {current location : Location} {path : List String}

/-- The elements that are there and the others are the whole path, and the former lead somewhere. -/
theorem existing_spec (found rest : List String) :
    (tree.existing current found rest).1 ++ (tree.existing current found rest).2 = found ++ rest ∧
      ((tree.existing current found rest).1 = found ∨
        (tree.reach current (tree.existing current found rest).1).isSome = true) := by
  induction rest generalizing found with
  | nil => exact ⟨rfl, .inl rfl⟩
  | cons element rest hypothesis =>
    unfold existing
    by_cases there : (tree.reach current (found ++ [element])).isSome = true
    · rw [if_pos there]
      obtain ⟨whole, leads⟩ := hypothesis (found ++ [element])
      refine ⟨by rw [whole, List.append_assoc, List.singleton_append], .inr ?_⟩
      rcases leads with same | isThere
      · rwa [same]
      · exact isThere
    · rw [if_neg there]
      exact ⟨rfl, .inl rfl⟩

theorem weaklyCanonical_of_reach (reached : tree.reach current path = some location) :
    tree.weaklyCanonical current path = "/" :: location := by
  rw [weaklyCanonical, reached]

theorem weaklyCanonical_ne_nil (nonempty : path ≠ []) : tree.weaklyCanonical current path ≠ [] := by
  cases reached : tree.reach current path with
  | some location =>
    rw [weaklyCanonical_of_reach reached]
    exact List.cons_ne_nil _ _
  | none =>
    rw [weaklyCanonical, reached]
    apply lexicallyNormal_ne_nil
    obtain ⟨whole, leads⟩ := @existing_spec tree current [] path
    rcases leads with nothing | isThere
    · rw [nothing, List.nil_append, List.nil_append] at whole
      rw [whole]
      exact List.append_ne_nil_of_right_ne_nil _ nonempty
    · obtain ⟨place, isPlace⟩ := Option.isSome_iff_exists.mp isThere
      rw [canonical, isPlace]
      exact List.cons_ne_nil _ _

/-! ## Trees without links -/

theorem nodeAt_mem {node : Node} (isNode : tree.nodeAt location = some node) (below : location ≠ []) :
    (location, node) ∈ tree.nodes := by
  rw [nodeAt, if_neg below] at isNode
  obtain ⟨entry, found, rfl⟩ := Option.map_eq_some_iff.mp isNode
  have same : entry.1 = location := by simpa using List.find?_some found
  rw [← same]
  exact List.mem_of_find?_eq_some found

theorem nodeAt_of_mem {node : Node} (isNode : (location, node) ∈ tree.nodes) (below : location ≠ []) :
    tree.nodeAt location = some node := by
  have found : (tree.nodes.find? (·.1 = location)).isSome := by
    rw [List.find?_isSome]
    exact ⟨_, isNode, by simp⟩
  obtain ⟨other, isOther⟩ := Option.isSome_iff_exists.mp found
  have same : other.1 = location := by simpa using List.find?_some isOther
  have equal : other = (location, node) :=
    List.inj_on_of_nodup_map tree.distinct (List.mem_of_find?_eq_some isOther) isNode same
  rw [nodeAt, if_neg below, isOther, equal]
  rfl

theorem nodeAt_dropLast {node : Node} (isNode : tree.nodeAt location = some node) :
    tree.nodeAt location.dropLast = some .directory := by
  by_cases below : location = []
  · rw [below]
    rfl
  · rcases tree.nested _ (nodeAt_mem isNode below) with isRoot | isDirectory
    · rw [show location.dropLast = [] from isRoot]
      rfl
    · by_cases isRoot : location.dropLast = []
      · rw [isRoot]
        rfl
      · exact nodeAt_of_mem isDirectory isRoot

theorem getLast_ne_parent {node : Node} (isNode : tree.nodeAt location = some node) :
    location.getLast? ≠ some ".." := by
  intro isLast
  have below : location ≠ [] := by
    rintro rfl
    cases isLast
  have proper := tree.proper _ (nodeAt_mem isNode below) ".." (List.mem_of_getLast? isLast)
  exact proper.notParent rfl

def NoLinks (tree : LinkedTree) : Prop :=
  ∀ node ∈ tree.nodes, ∀ target, node.2 ≠ .link target

/-- Without links a walk goes where the names lead by their text, and what is read as a directory is one. -/
theorem walkWith_normal (noLinks : tree.NoLinks) {follow : Location → List String → Option Location}
    {names : List String} {start : Location} {directory : Bool}
    (isDirectory : directory = true → tree.nodeAt start = some .directory)
    (walked : tree.walkWith follow start names = some location) :
    (names.foldl (normalStep true) (start, directory)).1 = location ∧
      ((names.foldl (normalStep true) (start, directory)).2 = true → tree.nodeAt location = some .directory) := by
  induction names generalizing start directory with
  | nil =>
    obtain rfl := Option.some.inj walked
    exact ⟨rfl, isDirectory⟩
  | cons name names hypothesis =>
    unfold walkWith at walked
    by_cases enters : tree.nodeAt start = some .directory
    · rw [if_neg (not_not.mpr enters)] at walked
      rw [List.foldl_cons]
      by_cases stays : name = "" ∨ name = "."
      · rw [if_pos stays] at walked
        rw [normalStep, if_pos stays]
        exact hypothesis (fun _ => enters) walked
      · rw [if_neg stays] at walked
        by_cases leaves : name = ".."
        · rw [if_pos leaves] at walked
          rw [normalStep, if_neg stays, if_pos leaves]
          by_cases isRoot : start = []
          · subst isRoot
            exact hypothesis (fun _ => rfl) walked
          · have notUp : ¬ (start = [] ∨ start.getLast? = some "..") := by
              rintro (same | isUp)
              · exact isRoot same
              · exact getLast_ne_parent enters isUp
            rw [if_neg (fun both => isRoot both.1), if_neg notUp]
            exact hypothesis (fun _ => nodeAt_dropLast enters) walked
        · rw [if_neg leaves] at walked
          rw [normalStep, if_neg stays, if_neg leaves]
          cases isNode : tree.nodeAt (start ++ [name]) with
          | none =>
            rw [isNode] at walked
            cases walked
          | some node =>
            rw [isNode] at walked
            cases node with
            | link target =>
              exact absurd rfl (noLinks _ (nodeAt_mem isNode (List.concat_ne_nil name start)) target)
            | directory => exact hypothesis (fun isTrue => by cases isTrue) walked
            | file => exact hypothesis (fun isTrue => by cases isTrue) walked
    · rw [if_pos enters] at walked
      cases walked

/-- Without links, the text of an absolute path to a file or directory says where it leads. -/
theorem lexicallyNormal_of_reach (noLinks : tree.NoLinks) {names : List String}
    (reached : tree.reach current ("/" :: names) = some location) :
    lexicallyNormal ("/" :: names) = "/" :: location ∨
      lexicallyNormal ("/" :: names) = "/" :: (location ++ [""]) ∧ tree.nodeAt location = some .directory := by
  have walked : tree.walkWith (tree.walk 39) [] names = some location := reached
  obtain ⟨normal, isDirectory⟩ := @walkWith_normal tree location noLinks _ names [] false
    (fun isTrue => by cases isTrue)
    walked
  have text : lexicallyNormal ("/" :: names) =
      "/" :: ((names.foldl (normalStep true) ([], false)).1 ++
        if (names.foldl (normalStep true) ([], false)).2 ∧ (names.foldl (normalStep true) ([], false)).1 ≠ [] ∧
          (names.foldl (normalStep true) ([], false)).1.getLast? ≠ some ".." then [""] else []) := by
    simp [lexicallyNormal]
  rw [text, normal]
  split
  · rename_i trailing
    exact .inr ⟨rfl, isDirectory trailing.1⟩
  · exact .inl (by rw [List.append_nil])

end LinkedTree

end KernelLake.Library.LinkedPaths
