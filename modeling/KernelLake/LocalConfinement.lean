import KernelLake.Library.LinkedPaths

/-!
Opening files below the root of the local store.

Both the root and the path are made canonical and compared element by element. A call that makes a path canonical
can fail, and then its text alone is normalised.
-/

namespace KernelLake.LocalConfinement

open KernelLake.Library.FileTrees KernelLake.Library.LinkedPaths

structure LocalObjectStore where
  tree : LinkedTree
  currentPath : Location
  localRoot : String

/-- Which of the two calls fail. -/
structure Failures where
  root : Bool
  path : Bool

namespace LocalObjectStore

variable (store : LocalObjectStore) (failures : Failures)

def resolved (fails : Bool) (path : String) : List String :=
  if fails then lexicallyNormal (elements path)
  else store.tree.weaklyCanonical store.currentPath (elements path)

def checkWithinRoot (path original : String) : Except String Unit :=
  if store.resolved failures.root store.localRoot <+: store.resolved failures.path path then .ok ()
  else .error s!"path '{original}' is outside the configured storage root"

/-- What is opened, by its names from the root of the file system. -/
def openFile (status : String → String) (uri : String) : Except String Location :=
  match store.checkWithinRoot failures uri uri with
  | .error message => .error message
  | .ok _ =>
    match store.tree.reach store.currentPath (elements uri) with
    | some location =>
      if store.tree.nodeAt location = some .file then .ok location
      else .error s!"failed to open '{uri}': {status uri}"
    | none => .error s!"failed to open '{uri}': {status uri}"

/-- The entry lies at or below what the root is when it is made canonical. -/
def Below (location : Location) : Prop :=
  ∃ root, store.tree.weaklyCanonical store.currentPath (elements store.localRoot) = "/" :: root ∧
    root <+: location

variable {store failures} {status : String → String} {uri : String} {location : Location}

theorem openFile_ok (opened : store.openFile failures status uri = .ok location) :
    store.resolved failures.root store.localRoot <+: store.resolved failures.path uri ∧
      store.tree.reach store.currentPath (elements uri) = some location ∧
        store.tree.nodeAt location = some .file := by
  unfold openFile checkWithinRoot at opened
  by_cases within : store.resolved failures.root store.localRoot <+: store.resolved failures.path uri
  · simp only [if_pos within] at opened
    cases reached : store.tree.reach store.currentPath (elements uri) with
    | none =>
      rw [reached] at opened
      cases opened
    | some place =>
      rw [reached] at opened
      by_cases isFile : store.tree.nodeAt place = some .file
      · simp only [if_pos isFile] at opened
        obtain rfl := Except.ok.inj opened
        exact ⟨within, rfl, isFile⟩
      · simp only [if_neg isFile] at opened
        cases opened
  · simp only [if_neg within] at opened
    cases opened

/-- Where both paths are resolved to what they lead to, only what lies below the root is opened. -/
theorem below_of_resolved (nonempty : store.localRoot ≠ "")
    (rootResolved : store.resolved failures.root store.localRoot =
      store.tree.weaklyCanonical store.currentPath (elements store.localRoot))
    (pathResolved : store.resolved failures.path uri = store.tree.weaklyCanonical store.currentPath (elements uri))
    (opened : store.openFile failures status uri = .ok location) : store.Below location := by
  obtain ⟨within, reached, -⟩ := openFile_ok opened
  rw [rootResolved, pathResolved, LinkedTree.weaklyCanonical_of_reach reached] at within
  cases root : store.tree.weaklyCanonical store.currentPath (elements store.localRoot) with
  | nil => exact absurd root (LinkedTree.weaklyCanonical_ne_nil (elements_ne_nil nonempty))
  | cons first names =>
    rw [root] at within
    obtain ⟨rfl, below⟩ := List.cons_prefix_cons.mp within
    exact ⟨names, root, below⟩

end LocalObjectStore

/-! ## Where the root confines -/

section Confinement

/-- A link in the root's directory that leads out of it, and one on the way to another directory. -/
def linkedTree : LinkedTree where
  nodes :=
    [(["srv"], .directory), (["srv", "data"], .directory), (["srv", "data", "x"], .file),
      (["srv", "data", "y"], .link "/other/secret"), (["srv", "link"], .link "/other/sub"), (["other"], .directory),
      (["other", "sub"], .directory), (["other", "data"], .directory), (["other", "secret"], .file)]
  distinct := by decide
  proper node isNode name isName := by
    have known : name ∈ ["srv", "data", "x", "y", "link", "other", "sub", "secret"] := by
      simp only [List.mem_cons, List.not_mem_nil, or_false] at isNode
      rcases isNode with rfl | rfl | rfl | rfl | rfl | rfl | rfl | rfl | rfl <;> revert name <;> decide
    simp only [List.mem_cons, List.not_mem_nil, or_false] at known
    rcases known with rfl | rfl | rfl | rfl | rfl | rfl | rfl | rfl <;> constructor <;> decide
  nested := by decide

def linkedStore (localRoot : String) : LocalObjectStore where
  tree := linkedTree
  currentPath := []
  localRoot := localRoot

theorem not_below {store : LocalObjectStore} {location : Location} {root : List String}
    (isRoot : store.tree.weaklyCanonical store.currentPath (elements store.localRoot) = root)
    (outside : ¬ (root ≠ [] ∧ root <+: "/" :: location)) : ¬ store.Below location := by
  rintro ⟨names, resolved, below⟩
  rw [isRoot] at resolved
  apply outside
  rw [resolved]
  exact ⟨List.cons_ne_nil _ _, List.cons_prefix_cons.mpr ⟨rfl, below⟩⟩

/-- Where the path is not resolved, a link in the root leads out of it. -/
theorem open_link :
    (linkedStore "/srv/data").openFile ⟨false, true⟩ id "/srv/data/y" = .ok ["other", "secret"] ∧
      ¬ (linkedStore "/srv/data").Below ["other", "secret"] :=
  ⟨by decide +kernel, @not_below _ _ ["/", "srv", "data"] (by decide +kernel) (by decide)⟩

/-- Where the root is not resolved, another directory takes its place. -/
theorem open_linked_root (pathFails : Bool) :
    (linkedStore "/srv/link/../data").openFile ⟨true, pathFails⟩ id "/srv/data/x" = .ok ["srv", "data", "x"] ∧
      ¬ (linkedStore "/srv/link/../data").Below ["srv", "data", "x"] := by
  refine ⟨?_, @not_below _ _ ["/", "other", "data"] (by decide +kernel) (by decide)⟩
  cases pathFails <;> decide +kernel

/-- An empty root has no element to compare. -/
theorem open_empty_root (failures : Failures) :
    (linkedStore "").openFile failures id "/other/secret" = .ok ["other", "secret"] ∧
      ¬ (linkedStore "").Below ["other", "secret"] := by
  refine ⟨?_, @not_below _ _ [] (by decide +kernel) (fun both => both.1 rfl)⟩
  obtain ⟨rootFails, pathFails⟩ := failures
  cases rootFails <;> cases pathFails <;> decide +kernel

/-- Only files below the root are opened, exactly where both paths are resolved and the root is not empty. -/
theorem confined_iff (failures : Failures) (emptyRoot : Bool) :
    (∀ (store : LocalObjectStore) (status : String → String) (uri : String) (location : Location),
      (store.localRoot = "" ↔ emptyRoot = true) → store.openFile failures status uri = .ok location →
        store.Below location) ↔
      failures.root = false ∧ failures.path = false ∧ emptyRoot = false := by
  constructor
  · intro confined
    cases emptyRoot with
    | true =>
      obtain ⟨opened, outside⟩ := open_empty_root failures
      exact absurd (confined _ _ _ _ (by decide) opened) outside
    | false =>
      obtain ⟨rootFails, pathFails⟩ := failures
      cases rootFails with
      | true =>
        obtain ⟨opened, outside⟩ := open_linked_root pathFails
        exact absurd (confined _ _ _ _ (by decide) opened) outside
      | false =>
        cases pathFails with
        | true =>
          obtain ⟨opened, outside⟩ := open_link
          exact absurd (confined _ _ _ _ (by decide) opened) outside
        | false => exact ⟨rfl, rfl, rfl⟩
  · rintro ⟨rootResolved, pathResolved, rfl⟩ store status uri location nonempty opened
    have isNonempty : store.localRoot ≠ "" := by
      intro empty
      cases nonempty.mp empty
    refine LocalObjectStore.below_of_resolved isNonempty ?_ ?_ opened
    · rw [rootResolved]
      rfl
    · rw [pathResolved]
      rfl

/-- A link in the root leads out of it when the path cannot be made canonical. -/
theorem link_leads_outside : ¬ ∀ (store : LocalObjectStore) (failures : Failures) (status : String → String)
    (uri : String) (location : Location), store.openFile failures status uri = .ok location →
      store.Below location := by
  intro confined
  exact open_link.2 (confined _ _ _ _ _ open_link.1)

/-- Without links on the disk the texts of the paths are enough, whatever fails. -/
theorem confined_without_links {store : LocalObjectStore} {failures : Failures} {status : String → String}
    {uri : String} {location root : Location} {rootNames names : List String} (noLinks : store.tree.NoLinks)
    (rootAbsolute : elements store.localRoot = "/" :: rootNames) (absolute : elements uri = "/" :: names)
    (rootThere : store.tree.reach store.currentPath (elements store.localRoot) = some root)
    (opened : store.openFile failures status uri = .ok location) : store.Below location := by
  obtain ⟨within, reached, isFile⟩ := LocalObjectStore.openFile_ok opened
  have resolvedPath : store.resolved failures.path uri = "/" :: location := by
    unfold LocalObjectStore.resolved
    cases failures.path with
    | false => exact LinkedTree.weaklyCanonical_of_reach reached
    | true =>
      rw [absolute] at reached ⊢
      rcases LinkedTree.lexicallyNormal_of_reach noLinks reached with same | ⟨-, isDirectory⟩
      · exact same
      · rw [isFile] at isDirectory
        cases isDirectory
  have resolvedRoot : "/" :: root <+: store.resolved failures.root store.localRoot := by
    unfold LocalObjectStore.resolved
    cases failures.root with
    | false =>
      rw [if_neg Bool.false_ne_true, LinkedTree.weaklyCanonical_of_reach rootThere]
    | true =>
      rw [rootAbsolute] at rootThere ⊢
      rcases LinkedTree.lexicallyNormal_of_reach noLinks rootThere with same | ⟨same, -⟩
      · rw [if_pos rfl, same]
      · rw [if_pos rfl, same]
        exact List.prefix_append ("/" :: root) [""]
  rw [resolvedPath] at within
  exact ⟨root, LinkedTree.weaklyCanonical_of_reach rootThere,
    (List.cons_prefix_cons.mp (resolvedRoot.trans within)).2⟩

end Confinement

end KernelLake.LocalConfinement
