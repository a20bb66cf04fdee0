import KernelLake.NvmeCacheLocks

/-!
The files of the object cache while calls are under way.

Every place of the program has an assertion about files: while an object is populated its file is absent,
from then on until it is opened it is present, and the entries that a sweep has still to look at are in
the directory with the sizes that it saw. A thread's own actions keep its assertion. The actions of other
threads cannot break it, since a file comes and goes only under the lock of its key, and goes only under
the eviction mutex.
-/

namespace KernelLake.NvmeCacheFiles

open KernelLake.NvmeObjectCache KernelLake.NvmeCacheLocks KernelLake.Library.Interleavings
open KernelLake.Library.Registries

/-! ## What files hold -/

/-- The contents of a key's file, if there is one. -/
def stored {Thread : Type} (shared : Shared Thread) (key : String) : Option Bytes :=
  (shared.files.lookup key).map CachedFile.contents

/-- What files hold after an action. -/
def storedAfter (stored : String → Option Bytes) (action : Action) (key : String) : Option Bytes :=
  match action with
  | .rename other contents _ => if key = other then some contents else stored key
  | .remove other true => if key = other then none else stored key
  | _ => stored key

section Effects

variable {Thread : Type} [DecidableEq Thread] {thread : Thread} {shared shared' : Shared Thread}

theorem lookup_insert_if (files : Directory) (key other : String) (file : CachedFile) :
    (files.insert key file).lookup other = if other = key then some file else files.lookup other := by
  split
  · rename_i same
    rw [same, AList.lookup_insert]
  · rename_i isOther
    rw [AList.lookup_insert_ne isOther]

theorem lookup_erase_if (files : Directory) (key other : String) :
    (files.erase key).lookup other = if other = key then none else files.lookup other := by
  split
  · rename_i same
    rw [same, AList.lookup_erase]
  · rename_i isOther
    rw [AList.lookup_erase_ne isOther]

theorem effect_stored {action : Action} (acted : effect thread action shared = some shared') :
    stored shared' = storedAfter (stored shared) action := by
  funext key
  cases action with
  | rename other contents mtime =>
    simp only [effect] at acted
    split at acted
    · obtain rfl := Option.some.inj acted
      simp only [stored, storedAfter, lookup_insert_if]
      split <;> rfl
    · cases acted
  | remove other removed =>
    cases removed with
    | true =>
      obtain ⟨file, _, rfl⟩ := Option.map_eq_some_iff.mp acted
      simp only [stored, storedAfter, lookup_erase_if]
      split <;> rfl
    | false =>
      obtain rfl := Option.some.inj acted
      rfl
  | touch other mtime =>
    obtain ⟨file, isFile, rfl⟩ := Option.map_eq_some_iff.mp acted
    simp only [stored, storedAfter, lookup_insert_if]
    split
    · rename_i same
      rw [same, isFile]
      rfl
    · rfl
  | lockKeys | unlockKeys | lockEviction | unlockEviction =>
    obtain ⟨_, _, rfl⟩ := Option.map_eq_some_iff.mp acted
    rfl
  | lockKey other | unlockKey other =>
    obtain ⟨_, _, rfl⟩ := changeKeyLock_eq acted
    rfl
  | tryLockKey other owned =>
    cases owned with
    | true =>
      obtain ⟨_, _, rfl⟩ := changeKeyLock_eq acted
      rfl
    | false =>
      obtain rfl := Option.some.inj acted
      rfl
  | stat | openFile | visit | loadBytes =>
    obtain rfl := eq_of_guarded acted
    rfl
  | addBytes | addEntry | subBytes | subEntry | countHit | countMiss | countEviction | internal =>
    obtain rfl := Option.some.inj acted
    rfl

theorem effect_stat {key : String} {present : Bool}
    (acted : effect thread (.stat key present) shared = some shared') :
    present = (stored shared key).isSome := by
  simp only [effect] at acted
  split at acted
  · rename_i isPresent
    rw [isPresent, stored, Option.isSome_map]
  · cases acted

theorem effect_visit {entry : Entry} (acted : effect thread (.visit entry) shared = some shared') :
    (stored shared entry.key).map List.length = some entry.size := by
  simp only [effect] at acted
  split at acted
  · rename_i isSize
    rw [stored, Option.map_map]
    exact isSize
  · cases acted

theorem effect_openFile {key : String} {contents : Bytes}
    (acted : effect thread (.openFile key contents) shared = some shared') :
    stored shared key = some contents := by
  simp only [effect] at acted
  split at acted
  · assumption
  · cases acted

end Effects

/-! ## Assertions -/

/-- Entries are in the directory with their sizes, each once. -/
structure Listed (stored : String → Option Bytes) (entries : List Entry) : Prop where
  nodup : (entries.map Entry.key).Nodup
  sized : ∀ entry ∈ entries, (stored entry.key).map List.length = some entry.size

def SweepAssertion (stored : String → Option Bytes) : Sweep → Prop
  | .scanning entries => Listed stored entries
  | .choosing entries _ => Listed stored entries
  | .requesting candidate => Listed stored (candidate.entry :: candidate.rest)
  | .registering candidate => Listed stored (candidate.entry :: candidate.rest)
  | .trying candidate => Listed stored (candidate.entry :: candidate.rest)
  | .removing candidate => Listed stored (candidate.entry :: candidate.rest)
  | .debitingBytes candidate => Listed stored candidate.rest
  | .debitingEntry candidate => Listed stored candidate.rest
  | .counting candidate => Listed stored candidate.rest
  | .releasing candidate => Listed stored candidate.rest
  | _ => True

/-- What a call knows of the file of its own key. -/
def TaskAssertion (stored : String → Option Bytes) (key : String) : NvmeObjectCache.Task → Prop
  | .checking => True
  | .counting present => present = (stored key).isSome
  | .fetching => stored key = none
  | .creating _ => stored key = none
  | .copying .. => stored key = none
  | .closing _ => stored key = none
  | .publishing _ => stored key = none
  | .creditingBytes size => (stored key).map List.length = some size
  | .creditingEntry => (stored key).isSome
  | .budgeting => (stored key).isSome
  | .sweeping sweep => (stored key).isSome ∧ SweepAssertion stored sweep
  | .touching => (stored key).isSome
  | .opening => (stored key).isSome
  | .releasing _ => True

def Asserted (stored : String → Option Bytes) : Phase → Prop
  | .serving uri task => TaskAssertion stored (cacheFileName uri) task
  | _ => True

theorem Listed.tail {stored : String → Option Bytes} {entry : Entry} {rest : List Entry}
    (listed : Listed stored (entry :: rest)) : Listed stored rest where
  nodup := (List.nodup_cons.mp listed.nodup).2
  sized other member := listed.sized other (List.mem_cons_of_mem _ member)

theorem Listed.perm {stored : String → Option Bytes} {entries sorted : List Entry}
    (listed : Listed stored entries) (reordered : sorted.Perm entries) : Listed stored sorted where
  nodup := (reordered.map Entry.key).nodup_iff.mpr listed.nodup
  sized entry member := listed.sized entry (reordered.mem_iff.mp member)

theorem Listed.kept {stored stored' : String → Option Bytes} {entries : List Entry}
    (listed : Listed stored entries) (kept : ∀ entry ∈ entries, stored' entry.key = stored entry.key) :
    Listed stored' entries where
  nodup := listed.nodup
  sized entry member := by
    rw [kept entry member]
    exact listed.sized entry member

/-! ## Own actions -/

section Moves

variable {Thread : Type} [DecidableEq Thread] {setting : Setting} {thread : Thread}
  {shared shared' : Shared Thread} {action : Action}

/-- A sweep's own action keeps its assertion, and its call's file. -/
theorem sweepMoves_asserted {key : String} {sweep sweep' : Sweep}
    (moves : SweepMoves setting.maxSizeBytes key sweep action sweep') (foreign : SweepForeign key sweep)
    (acted : effect thread action shared = some shared')
    (asserted : SweepAssertion (stored shared) sweep) (present : (stored shared key).isSome) :
    (stored shared' key).isSome ∧ SweepAssertion (stored shared') sweep' := by
  rw [effect_stored acted]
  cases moves with
  | visit unseen =>
    refine ⟨present, ?_, fun entry member => ?_⟩
    · rw [List.map_append, List.nodup_append]
      refine ⟨asserted.nodup, List.nodup_singleton _, fun other member new isNew => ?_⟩
      rw [List.mem_singleton.mp isNew]
      exact fun same => unseen (same ▸ member)
    · rcases List.mem_append.mp member with seen | isNew
      · exact asserted.sized entry seen
      · rw [List.mem_singleton.mp isNew]
        exact effect_visit acted
  | scanOver exceeded reordered oldestFirst => exact ⟨present, asserted.perm reordered⟩
  | overBudget exceeded => exact ⟨present, List.nodup_nil, fun _ member => by cases member⟩
  | skipProtected exceeded own => exact ⟨present, asserted.tail⟩
  | choose exceeded isForeign => exact ⟨present, asserted⟩
  | busy => exact ⟨present, asserted.tail⟩
  | notRemoved => exact ⟨present, asserted.tail⟩
  | @removed candidate =>
    have others (other : String) (isOther : other ≠ candidate.entry.key) :
        storedAfter (stored shared) (.remove candidate.entry.key true) other = stored shared other :=
      if_neg isOther
    refine ⟨?_, asserted.tail.kept (fun entry member => others _ (fun same => ?_))⟩
    · rw [others key (Ne.symm foreign)]
      exact present
    · exact (List.nodup_cons.mp asserted.nodup).1 (same ▸ List.mem_map_of_mem member)
  | _ => exact ⟨present, by first | exact asserted | trivial⟩

/-- A call's own action keeps its assertion. -/
theorem taskMoves_asserted {uri : String} {task task' : NvmeObjectCache.Task}
    (moves : TaskMoves setting uri task action task') (foreign : Foreign (.serving uri task))
    (acted : effect thread action shared = some shared')
    (asserted : TaskAssertion (stored shared) (cacheFileName uri) task) :
    TaskAssertion (stored shared') (cacheFileName uri) task' := by
  have after := effect_stored acted
  cases moves with
  | sweep sweepMoves =>
    exact sweepMoves_asserted sweepMoves foreign acted asserted.2 asserted.1
  | stat =>
    rw [after]
    exact effect_stat acted
  | hit =>
    rw [after]
    exact asserted.symm
  | miss =>
    rw [after]
    exact Option.not_isSome_iff_eq_none.mp (fun isSome => by cases asserted.trans isSome)
  | renamed =>
    rw [after]
    simp [TaskAssertion, storedAfter]
  | creditBytes =>
    rw [after]
    exact Option.isSome_of_eq_some ((Option.map_eq_some_iff.mp asserted).choose_spec.1)
  | lockEviction budget =>
    rw [after]
    exact ⟨asserted, trivial⟩
  | swept =>
    rw [after]
    exact asserted.1
  | _ =>
    rw [after]
    first | exact asserted | trivial

theorem moves_asserted {phase phase' : Phase} (moves : Moves setting phase action phase')
    (foreign : Foreign phase) (acted : effect thread action shared = some shared')
    (asserted : Asserted (stored shared) phase) : Asserted (stored shared') phase' := by
  cases moves with
  | task taskMoves => exact taskMoves_asserted taskMoves foreign acted asserted
  | lockKey => trivial
  | _ => trivial

end Moves

/-! ## Actions of other threads -/

/-- Where a file changes: under the lock of its key, and only to appear or under the eviction mutex. -/
theorem moves_changes {Thread : Type} {setting : Setting} {shared : Shared Thread} {action : Action}
    {phase phase' : Phase} (moves : Moves setting phase action phase')
    (asserted : Asserted (stored shared) phase) {key : String}
    (changed : storedAfter (stored shared) action key ≠ stored shared key) :
    holdsKey phase key ∧ (stored shared key = none ∨ holdsEviction phase) := by
  cases moves with
  | @task uri task task' _ taskMoves =>
    cases taskMoves with
    | renamed =>
      by_cases same : key = cacheFileName uri
      · subst same
        exact ⟨rfl, .inl asserted⟩
      · exact absurd (if_neg same) changed
    | sweep sweepMoves =>
      cases sweepMoves with
      | @removed candidate =>
        by_cases same : key = candidate.entry.key
        · subst same
          exact ⟨.inr rfl, .inr trivial⟩
        · exact absurd (if_neg same) changed
      | _ => exact absurd rfl changed
    | _ => exact absurd rfl changed
  | _ => exact absurd rfl changed

theorem sweepAssertion_kept {stored stored' : String → Option Bytes} {sweep : Sweep}
    (asserted : SweepAssertion stored sweep)
    (kept : ∀ key, (stored key).isSome → stored' key = stored key) : SweepAssertion stored' sweep := by
  have listed {entries : List Entry} (listed : Listed stored entries) : Listed stored' entries := by
    refine listed.kept (fun entry member => kept _ ?_)
    exact Option.isSome_of_eq_some (Option.map_eq_some_iff.mp (listed.sized entry member)).choose_spec.1
  cases sweep with
  | deciding | leaving => trivial
  | _ => exact listed asserted

/-- A thread's assertion holds as long as the files that its locks protect stay as they are. -/
theorem asserted_kept {stored stored' : String → Option Bytes} {phase : Phase}
    (asserted : Asserted stored phase)
    (own : ∀ key, holdsKey phase key → stored' key = stored key)
    (entries : holdsEviction phase → ∀ key, (stored key).isSome → stored' key = stored key) :
    Asserted stored' phase := by
  cases phase with
  | serving uri task =>
    cases task with
    | sweeping sweep =>
      have same : stored' (cacheFileName uri) = stored (cacheFileName uri) := own _ (.inl rfl)
      exact ⟨same ▸ asserted.1, sweepAssertion_kept asserted.2 (entries trivial)⟩
    | checking | releasing => trivial
    | _ =>
      have same : stored' (cacheFileName uri) = stored (cacheFileName uri) := own _ rfl
      simp only [Asserted, TaskAssertion] at asserted ⊢
      rw [same]
      exact asserted
  | _ => trivial

/-! ## Every run -/

section Runs

variable {Thread : Type} [DecidableEq Thread] {setting : Setting}

theorem step_asserted {state state' : State Thread} {thread : Thread} {action : Action}
    (locked : Locked state) (foreign : Foreign (state.phases thread))
    (asserted : ∀ other, Asserted (stored state.shared) (state.phases other))
    (step : Step (program setting Thread) state thread action state') (other : Thread) :
    Asserted (stored state'.shared) (state'.phases other) := by
  by_cases same : other = thread
  · rw [same]
    exact moves_asserted step.moved foreign step.acted (asserted thread)
  · rw [step.others other same]
    have changes {key : String} := @moves_changes Thread setting state.shared action _ _ step.moved
      (asserted thread) key
    refine asserted_kept (asserted other) (fun key held => ?_) (fun held key present => ?_)
    · rw [effect_stored step.acted]
      by_contra changed
      exact same ((locked.key key).exclusive held (changes changed).1)
    · rw [effect_stored step.acted]
      by_contra changed
      rcases (changes changed).2 with absent | otherHeld
      · rw [absent] at present
        cases present
      · exact same (locked.eviction.exclusive held otherHeld)

theorem reachable_asserted {state : State Thread} (reachable : Reachable (system setting Thread) state)
    (thread : Thread) : Asserted (stored state.shared) (state.phases thread) := by
  obtain ⟨trace, run⟩ := reachable
  refine @Run.invariant _ _ _ (fun _ state => ∀ thread, Asserted (stored state.shared) (state.phases thread))
    trace state run (fun state initial thread => ?_)
    (fun trace state label state' run asserted step => ?_) thread
  · rw [initial.2 thread]
    trivial
  · have reachable : Reachable (system setting Thread) state := ⟨trace, run⟩
    exact step_asserted (reachable_locked reachable) (reachable_foreign reachable label.1) asserted step

/-- A call that has found its file, or has published it, and has not opened it yet. -/
def Secured : NvmeObjectCache.Task → Prop
  | .counting true => True
  | .creditingBytes _ => True
  | .creditingEntry => True
  | .budgeting => True
  | .sweeping _ => True
  | .touching => True
  | .opening => True
  | _ => False

theorem secured_present {stored : String → Option Bytes} {key : String} {task : NvmeObjectCache.Task}
    (asserted : TaskAssertion stored key task) (secured : Secured task) : (stored key).isSome := by
  cases task with
  | counting present =>
    cases present with
    | true => exact asserted.symm
    | false => exact secured.elim
  | creditingBytes => exact Option.isSome_of_eq_some (Option.map_eq_some_iff.mp asserted).choose_spec.1
  | sweeping => exact asserted.1
  | creditingEntry | budgeting | touching | opening => exact asserted
  | _ => exact secured.elim

/-- From the check that finds a file, or from its publication, until the call opens it the file is there, and
the open finds it. -/
theorem cached_file_present {state : State Thread} (reachable : Reachable (system setting Thread) state)
    {thread : Thread} {uri : String} {task : NvmeObjectCache.Task}
    (serving : state.phases thread = .serving uri task) (secured : Secured task) :
    ∃ file, state.shared.files.lookup (cacheFileName uri) = some file ∧
      effect thread (.openFile (cacheFileName uri) file.contents) state.shared = some state.shared := by
  have asserted := reachable_asserted reachable thread
  rw [serving] at asserted
  obtain ⟨file, isFile⟩ : ∃ file, state.shared.files.lookup (cacheFileName uri) = some file := by
    have present := secured_present asserted secured
    rw [stored, Option.isSome_map] at present
    exact Option.isSome_iff_exists.mp present
  exact ⟨file, isFile, if_pos (by rw [isFile]; rfl)⟩

end Runs

/-- A call whose sweep has just removed another file, while a second call waits for the same object. -/
theorem cached_file_present_evicted :
    ∃ file, (evictedState "older.cache" "s3://lake/orders").shared.files.lookup (cacheFileName "s3://lake/orders") =
        some file ∧
      effect true (.openFile (cacheFileName "s3://lake/orders") file.contents)
        (evictedState "older.cache" "s3://lake/orders").shared =
          some (evictedState "older.cache" "s3://lake/orders").shared := by
  have foreign : cacheFileName "s3://lake/orders" ≠ "older.cache" := by decide +kernel
  exact @cached_file_present Bool _ crowdedSetting _ (reachable_evicted foreign) true _ _ rfl trivial

end KernelLake.NvmeCacheFiles
