import KernelLake.NvmeCacheAccounting

/-!
The bytes that the object cache returns.

A file is looked for under the hash of a URI, and nothing in it says whose it is. As long as no two URIs
that are read have one hash, every file holds the object of the URI it is found under, and so does every
call's result. Two URIs with one hash share a file: whoever comes second is given the first one's object.
-/

namespace KernelLake.NvmeCacheContents

open KernelLake.NvmeObjectCache KernelLake.NvmeCacheLocks KernelLake.NvmeCacheFiles
open KernelLake.Library.Interleavings KernelLake.Library.Registries

/-- A backend whose objects never change, and a directory that was filled from it. Sizes are exact and fit
the signed offsets of a read. -/
structure Immutable (setting : Setting) (object : String → Bytes) : Prop where
  contents : ∀ uri remote, setting.backend uri remote → remote.contents = object uri
  size : ∀ uri remote, setting.backend uri remote → copyTotal remote = (object uri).length
  found : ∀ files, setting.found files → ∀ uri, setting.requested uri →
    ∀ file, files.lookup (cacheFileName uri) = some file → file.contents = object uri

/-- No two URIs that are read have files of one name. -/
def Distinct (setting : Setting) : Prop :=
  ∀ first second, setting.requested first → setting.requested second →
    cacheFileName first = cacheFileName second → first = second

/-- Every file that is found under a URI holds its object. -/
def Faithful (setting : Setting) (object : String → Bytes) (stored : String → Option Bytes) : Prop :=
  ∀ uri, setting.requested uri → ∀ contents, stored (cacheFileName uri) = some contents →
    contents = object uri

/-- What a call for an object has in its hands. -/
def TaskCarries (object : Bytes) : NvmeObjectCache.Task → Prop
  | .creating remote => remote.contents = object ∧ copyTotal remote = object.length
  | .copying remote _ => remote.contents = object ∧ copyTotal remote = object.length
  | .closing contents => contents = object
  | .publishing contents => contents = object
  | .releasing (some contents) => contents = object
  | _ => True

def Carries (setting : Setting) (object : String → Bytes) : Phase → Prop
  | .idle => True
  | .requesting uri => setting.requested uri
  | .registering uri => setting.requested uri
  | .waiting uri => setting.requested uri
  | .serving uri task => setting.requested uri ∧ TaskCarries (object uri) task

section Runs

variable {Thread : Type} [DecidableEq Thread] {setting : Setting} {object : String → Bytes}

theorem taskMoves_carry {uri : String} {task task' : NvmeObjectCache.Task} {action : Action} {thread : Thread}
    {shared shared' : Shared Thread} (immutable : Immutable setting object) (wanted : setting.requested uri)
    (moves : TaskMoves setting uri task action task') (acted : effect thread action shared = some shared')
    (faithful : Faithful setting object (stored shared)) (carries : TaskCarries (object uri) task) :
    TaskCarries (object uri) task' := by
  cases moves with
  | fetched yields => exact ⟨immutable.contents _ _ yields, immutable.size _ _ yields⟩
  | @shortRead remote offset more drained =>
    show remote.contents.take offset = object uri
    rw [List.take_of_length_le drained]
    exact carries.1
  | @copied remote offset complete =>
    obtain ⟨isObject, isSize⟩ := carries
    rw [isSize] at complete
    show remote.contents.take offset = object uri
    rw [isObject]
    exact List.take_of_length_le (by omega)
  | @opened contents => exact faithful uri wanted contents (effect_openFile acted)
  | created | copyChunk | closed => exact carries
  | _ => trivial

theorem moves_carry {phase phase' : Phase} {action : Action} {thread : Thread}
    {shared shared' : Shared Thread} (immutable : Immutable setting object)
    (moves : Moves setting phase action phase') (acted : effect thread action shared = some shared')
    (faithful : Faithful setting object (stored shared)) (carries : Carries setting object phase) :
    Carries setting object phase' := by
  cases moves with
  | call wanted => exact wanted
  | lockKeys | unlockKeys => exact carries
  | lockKey => exact ⟨carries, trivial⟩
  | task taskMoves => exact ⟨carries.1, taskMoves_carry immutable carries.1 taskMoves acted faithful carries.2⟩
  | finish => trivial

/-- Only a publication changes what a file holds, and it publishes the object of the file's own URI. -/
theorem moves_faithful {phase phase' : Phase} {action : Action} (distinct : Distinct setting)
    (moves : Moves setting phase action phase') {stored : String → Option Bytes}
    (faithful : Faithful setting object stored) (carries : Carries setting object phase) :
    Faithful setting object (storedAfter stored action) := by
  intro uri wanted contents isStored
  have unchanged (same : storedAfter stored action (cacheFileName uri) = stored (cacheFileName uri)) :
      contents = object uri :=
    faithful uri wanted contents (same ▸ isStored)
  cases moves with
  | @task writer task task' _ taskMoves =>
    cases taskMoves with
    | @renamed published mtime =>
      by_cases same : cacheFileName uri = cacheFileName writer
      · obtain rfl := distinct uri writer wanted carries.1 same
        rw [storedAfter, if_pos rfl] at isStored
        rw [← Option.some.inj isStored]
        exact carries.2
      · exact unchanged (if_neg same)
    | sweep sweepMoves =>
      cases sweepMoves with
      | @removed candidate =>
        by_cases same : cacheFileName uri = candidate.entry.key
        · rw [storedAfter, if_pos same] at isStored
          cases isStored
        · exact unchanged (if_neg same)
      | _ => exact unchanged rfl
    | _ => exact unchanged rfl
  | _ => exact unchanged rfl

/-- In every run over URIs with different hashes, what a call returns is the object it was asked for. -/
theorem returned_bytes (immutable : Immutable setting object) (distinct : Distinct setting)
    {state : State Thread} (reachable : Reachable (system setting Thread) state)
    {thread : Thread} {uri : String} {contents : Bytes}
    (returning : state.phases thread = .serving uri (.releasing (some contents))) :
    contents = object uri := by
  have held : Faithful setting object (stored state.shared) ∧
      ∀ thread, Carries setting object (state.phases thread) := by
    refine @Reachable.invariant _ _ _ (fun state => Faithful setting object (stored state.shared) ∧
      ∀ thread, Carries setting object (state.phases thread)) state reachable
      (fun state initial => ⟨fun uri wanted contents isStored => ?_, fun thread => ?_⟩)
      (fun state label state' held step => ⟨?_, fun other => ?_⟩)
    · obtain ⟨file, isFile, rfl⟩ := Option.map_eq_some_iff.mp isStored
      exact immutable.found _ initial.1.found uri wanted file isFile
    · rw [initial.2 thread]
      trivial
    · rw [effect_stored step.acted]
      exact moves_faithful distinct step.moved held.1 (held.2 label.1)
    · by_cases same : other = label.1
      · rw [same]
        exact moves_carry immutable step.moved step.acted held.1 (held.2 label.1)
      · rw [step.others other same]
        exact held.2 other
  have carries := held.2 thread
  rw [returning] at carries
  exact carries.2

end Runs

/-! ## Two URIs of one hash -/

def firstUri : String := "s3://lake/dsl5lkuqb45qg.parquet"
def secondUri : String := "s3://lake/ibdegd6knm2vk.parquet"

theorem names_collide : cacheFileName secondUri = cacheFileName firstUri := by
  decide +kernel

/-- Each of the two objects is one byte. -/
def collidingObject (uri : String) : Bytes :=
  if uri = firstUri then [1] else [2]

/-- An unbounded cache over a backend that has the two objects. -/
def collidingSetting : Setting where
  maxSizeBytes := 0
  backend uri remote := remote = ⟨collidingObject uri, 1⟩
  requested uri := uri = firstUri ∨ uri = secondUri
  found files := files = ∅

theorem immutable_colliding : Immutable collidingSetting collidingObject where
  contents uri remote yields := by
    obtain rfl : remote = ⟨collidingObject uri, 1⟩ := yields
    rfl
  size uri remote yields := by
    obtain rfl : remote = ⟨collidingObject uri, 1⟩ := yields
    unfold collidingObject
    split <;> rfl
  found files found uri wanted file isFile := by
    obtain rfl : files = ∅ := found
    cases isFile

/-- A file that is there is served to whoever asks for its name. -/
theorem alone_hits {Thread : Type} [DecidableEq Thread] {setting : Setting} {thread : Thread}
    {shared : Shared Thread} {uri : String} {file : CachedFile}
    (looking : Reachable (system setting Thread) (alone thread (.serving uri .checking) shared))
    (isFile : shared.files.lookup (cacheFileName uri) = some file) :
    Reachable (system setting Thread)
      (alone thread (.serving uri (.releasing (some file.contents)))
        { shared with hits := shared.hits + 1 }) := by
  have found := alone_next looking (.task (@TaskMoves.stat _ _ true)) (if_pos (by rw [isFile]; rfl))
  have touching := alone_next found (.task .hit) rfl
  have opening := alone_next touching (.task .touchFailed) rfl
  exact alone_next opening (.task .opened) (effect_openFile_of isFile)

/-- The first object is read, and then the second URI yields it too. -/
theorem returned_bytes_colliding :
    Immutable collidingSetting collidingObject ∧
      ∃ state, Reachable (system collidingSetting Unit) state ∧
        state.phases () = .serving secondUri (.releasing (some (collidingObject firstUri))) ∧
        collidingObject firstUri ≠ collidingObject secondUri := by
  have read := @alone_reads Unit _ collidingSetting () firstUri 1 rfl rfl (.inl rfl) rfl
  have looking := @alone_looks Unit _ collidingSetting () _ secondUri read (.inr rfl) rfl rfl
  have isFile : (readCache () (cacheFileName firstUri) [1]).files.lookup (cacheFileName secondUri) =
      some ⟨[1], 0⟩ := by
    rw [names_collide]
    exact AList.lookup_insert _
  exact ⟨immutable_colliding, _, alone_hits looking isFile, rfl, by decide⟩

/-- One URI never collides with itself. -/
def singleSetting : Setting :=
  { collidingSetting with requested := fun uri => uri = firstUri }

theorem returned_bytes_single : ([1] : Bytes) = collidingObject firstUri := by
  have immutable : Immutable singleSetting collidingObject :=
    ⟨immutable_colliding.contents, immutable_colliding.size, fun files found uri wanted file isFile => by
      rw [show files = ∅ from found] at isFile
      cases isFile⟩
  have distinct : Distinct singleSetting := fun first second isFirst isSecond _ => isFirst.trans isSecond.symm
  have read := @alone_reads Unit _ singleSetting () firstUri 1 rfl rfl rfl rfl
  have looking := @alone_looks Unit _ singleSetting () _ firstUri read rfl rfl rfl
  have served := alone_hits looking (AList.lookup_insert _)
  exact @returned_bytes Unit _ _ _ immutable distinct _ served () firstUri [1] rfl

end KernelLake.NvmeCacheContents
