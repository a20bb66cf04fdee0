import KernelLake.Library.Evictions
import KernelLake.NvmeCacheLocks
import Mathlib.Data.List.Sort

/-!
One sweep of the cache directory that nothing disturbs.

The sweep compares a counter with the budget, lists the directory, sorts the entries by age and removes them
one after the other. Alone with a counter that is right, it removes the oldest entries that need not be kept,
as few of them as make the rest fit.
-/

namespace KernelLake.NvmeEviction

open KernelLake.NvmeObjectCache KernelLake.Library.Interleavings KernelLake.Library.Registries
open KernelLake.Library.Evictions KernelLake.NvmeCacheLocks

/-! ## What a sweep is to do -/

/-- The entries of a directory, as a listing shows them. -/
def directoryEntries (files : Directory) : List Entry :=
  files.entries.map (fun file => ⟨file.1, file.2.mtime, fileSize file.1 file.2⟩)

/-- The directory after the files of some keys were removed. -/
def eraseAll (keys : List String) (files : Directory) : Directory :=
  keys.foldl (fun files key => files.erase key) files

/-- The oldest entries were removed, one after the other while the rest exceeded the budget, and never the
protected one. -/
structure EvictsOldest (maxSizeBytes : Nat) (protectedKey : String) (before after : Directory)
    (removed : List String) : Prop where
  gone : after = eraseAll removed before
  oldestFirst : ∃ order : List Entry, order.Perm (directoryEntries before) ∧
    order.Pairwise (fun a b => a.mtime ≤ b.mtime) ∧
      removed <+: (order.filter (fun entry => entry.key ≠ protectedKey)).map Entry.key
  needed : ∀ earlier key later, removed = earlier ++ key :: later →
    maxSizeBytes < total fileSize (eraseAll earlier before)
  enough : total fileSize after ≤ maxSizeBytes ∨ ∀ key ∈ after, key = protectedKey
  spared : protectedKey ∉ removed

/-! ## Directories -/

section Directories

variable {files : Directory} {entry : Entry} {keys : List String} {key : String}

theorem mem_directoryEntries : entry ∈ directoryEntries files ↔
    ∃ file, files.lookup entry.key = some file ∧ file.mtime = entry.mtime ∧
      fileSize entry.key file = entry.size := by
  constructor
  · intro member
    obtain ⟨⟨name, file⟩, inFiles, rfl⟩ := List.mem_map.mp member
    exact ⟨file, AList.mem_lookup_iff.mpr inFiles, rfl, rfl⟩
  · rintro ⟨file, found, sameTime, sameSize⟩
    refine List.mem_map.mpr ⟨⟨entry.key, file⟩, AList.mem_lookup_iff.mp found, ?_⟩
    obtain ⟨name, mtime, size⟩ := entry
    simp only at sameTime sameSize ⊢
    rw [sameTime, sameSize]

theorem keys_directoryEntries (files : Directory) : (directoryEntries files).map Entry.key = files.keys := by
  simp only [directoryEntries, List.map_map]
  rfl

theorem nodup_directoryEntries (files : Directory) : ((directoryEntries files).map Entry.key).Nodup := by
  rw [keys_directoryEntries]
  exact files.nodupKeys

theorem sizes_directoryEntries (files : Directory) :
    ((directoryEntries files).map Entry.size).sum = total fileSize files := by
  simp only [directoryEntries, List.map_map]
  rfl

theorem eraseAll_append (first second : List String) (files : Directory) :
    eraseAll (first ++ second) files = eraseAll second (eraseAll first files) :=
  List.foldl_append

theorem lookup_eraseAll (keys : List String) (files : Directory) (key : String) :
    (eraseAll keys files).lookup key = if key ∈ keys then none else files.lookup key := by
  induction keys generalizing files with
  | nil => rfl
  | cons first rest hypothesis =>
    rw [eraseAll, List.foldl_cons, ← eraseAll, hypothesis]
    by_cases same : key = first
    · rw [same, AList.lookup_erase, ite_self, if_pos (List.mem_cons_self ..)]
    · rw [AList.lookup_erase_ne same]
      simp only [List.mem_cons, same, false_or]

theorem mem_eraseAll : key ∈ eraseAll keys files ↔ key ∉ keys ∧ key ∈ files := by
  rw [← AList.lookup_isSome, lookup_eraseAll, ← AList.lookup_isSome]
  by_cases erased : key ∈ keys <;> simp [erased]

/-- Removing entries of a directory takes their sizes off its total. -/
theorem total_eraseAll {entries : List Entry} (members : ∀ entry ∈ entries, entry ∈ directoryEntries files)
    (distinct : (entries.map Entry.key).Nodup) :
    total fileSize files = (entries.map Entry.size).sum + total fileSize (eraseAll (entries.map Entry.key) files) := by
  induction entries generalizing files with
  | nil => exact (Nat.zero_add _).symm
  | cons entry rest hypothesis =>
    obtain ⟨first, others⟩ := List.forall_mem_cons.mp members
    obtain ⟨absent, restDistinct⟩ := List.nodup_cons.mp distinct
    obtain ⟨file, found, _, size⟩ := mem_directoryEntries.mp first
    have restMembers : ∀ other ∈ rest, other ∈ directoryEntries (files.erase entry.key) := by
      intro other member
      obtain ⟨otherFile, otherFound, same⟩ := mem_directoryEntries.mp (others other member)
      have isOther : other.key ≠ entry.key := fun same => absent (same ▸ List.mem_map_of_mem member)
      exact mem_directoryEntries.mpr ⟨otherFile, (AList.lookup_erase_ne isOther).trans otherFound, same⟩
    have rest := hypothesis restMembers restDistinct
    rw [total_erase found, size, List.map_cons, List.map_cons, List.sum_cons, eraseAll, List.foldl_cons, ← eraseAll]
    omega

end Directories

/-! ## Undisturbed sweeps -/

/-- Nothing fails and nothing else is at work: a listing shows the directory as it is, and all of it, every
lock is to be had and every removal succeeds. -/
structure Undisturbed (files : Directory) (sweep : Sweep) (action : Action) (sweep' : Sweep) : Prop where
  listed : ∀ entry, action = .visit entry → entry ∈ directoryEntries files
  complete : ∀ entries, sweep = .scanning entries → action = .internal →
    sweep' ≠ .leaving false ∧ ∀ key ∈ files, key ∈ entries.map Entry.key
  owned : ∀ key, action ≠ .tryLockKey key false
  removed : ∀ key, action ≠ .remove key false

/-- One call of `evict_if_over_budget`, alone with the cache. -/
def sweepAlone {Thread : Type} [DecidableEq Thread] (maxSizeBytes : UInt64) (protectedKey : String)
    (thread : Thread) (shared : Shared Thread) : System (Sweep × Shared Thread) Action where
  initial state := state = (.deciding, shared)
  step state action state' :=
    SweepMoves maxSizeBytes protectedKey state.1 action state'.1 ∧
      effect thread action state.2 = some state'.2 ∧ Undisturbed state.2.files state.1 action state'.1

/-- The key of the file that an action removes. -/
def removal : Action → Option String
  | .remove key true => some key
  | _ => none

/-- The files that were removed, in order; a trace has its latest action first. -/
def removals (trace : List Action) : List String :=
  trace.reverse.filterMap removal

theorem removals_cons (action : Action) (trace : List Action) :
    removals (action :: trace) = removals trace ++ (removal action).toList := by
  rw [removals, List.reverse_cons, List.filterMap_append]
  cases isRemoval : removal action <;> simp [removals, isRemoval]

/-- What a sweep removes of the entries before it. -/
def evictions (maxSizeBytes : UInt64) (protectedKey : String) (entries : List Entry) (total : Nat) : List Entry :=
  evict Entry.size (fun entry => entry.key = protectedKey) maxSizeBytes.toNat entries total

/-- What a sweep has still to remove once it has listed the directory. -/
def owed (maxSizeBytes : UInt64) (protectedKey : String) : Sweep → List Entry
  | .choosing entries total => evictions maxSizeBytes protectedKey entries total
  | .requesting candidate | .registering candidate | .trying candidate | .removing candidate =>
    candidate.entry ::
      evictions maxSizeBytes protectedKey candidate.rest (candidate.total - candidate.entry.size)
  | .debitingBytes candidate | .debitingEntry candidate | .counting candidate | .releasing candidate =>
    evictions maxSizeBytes protectedKey candidate.rest candidate.total
  | .deciding | .scanning _ | .leaving _ => []

/-- What a sweep of a directory removes. -/
def Planned (maxSizeBytes : UInt64) (protectedKey : String) (files : Directory) (removed : List String) : Prop :=
  ∃ order : List Entry, order.Perm (directoryEntries files) ∧ order.Pairwise (fun a b => a.mtime ≤ b.mtime) ∧
    removed = (evictions maxSizeBytes protectedKey order (total fileSize files)).map Entry.key

section Sweeps

variable {Thread : Type} [DecidableEq Thread] {maxSizeBytes : UInt64} {protectedKey : String} {thread : Thread}

/-- Where a sweep stands that began with the given cache and has removed the given files. -/
def OnCourse (maxSizeBytes : UInt64) (protectedKey : String) (before : Shared Thread) (removed : List String)
    (state : Sweep × Shared Thread) : Prop :=
  match state.1 with
  | .deciding => state.2 = before ∧ removed = []
  | .scanning entries => removed = [] ∧ (entries.map Entry.key).Nodup ∧
      ∀ entry ∈ entries, entry ∈ directoryEntries before.files
  | .leaving succeeded => succeeded = true ∧ Planned maxSizeBytes protectedKey before.files removed
  | sweep => Planned maxSizeBytes protectedKey before.files
      (removed ++ (owed maxSizeBytes protectedKey sweep).map Entry.key)

theorem exists_sorted (entries : List Entry) :
    ∃ sorted : List Entry, sorted.Perm entries ∧ sorted.Pairwise (fun a b => a.mtime ≤ b.mtime) := by
  have total : Std.Total (fun a b : Entry => a.mtime ≤ b.mtime) := ⟨fun a b => Int.le_total a.mtime b.mtime⟩
  have trans : IsTrans Entry (fun a b => a.mtime ≤ b.mtime) := ⟨fun _ _ _ => Int.le_trans⟩
  exact ⟨_, List.perm_insertionSort (fun a b : Entry => a.mtime ≤ b.mtime) entries,
    List.pairwise_insertionSort _ _⟩

theorem planned_within {files : Directory} (within : total fileSize files ≤ maxSizeBytes.toNat) :
    Planned maxSizeBytes protectedKey files [] := by
  obtain ⟨order, same, sorted⟩ := exists_sorted (directoryEntries files)
  exact ⟨order, same, sorted, by rw [evictions, evict_within within, List.map_nil]⟩

/-- A complete listing without repetitions is the directory in some order. -/
theorem listing_perm {files : Directory} {entries : List Entry} (distinct : (entries.map Entry.key).Nodup)
    (members : ∀ entry ∈ entries, entry ∈ directoryEntries files)
    (complete : ∀ key ∈ files, key ∈ entries.map Entry.key) : entries.Perm (directoryEntries files) := by
  refine (List.perm_ext_iff_of_nodup (List.Nodup.of_map _ distinct)
    (List.Nodup.of_map _ (nodup_directoryEntries files))).mpr (fun entry => ⟨members entry, fun member => ?_⟩)
  have isKey : entry.key ∈ files := by
    rw [AList.mem_keys, ← keys_directoryEntries]
    exact List.mem_map_of_mem member
  obtain ⟨other, isOther, sameKey⟩ := List.mem_map.mp (complete entry.key isKey)
  have same : other = entry :=
    List.inj_on_of_nodup_map (nodup_directoryEntries files) (members other isOther) member sameKey
  exact same ▸ isOther

/-- A sweep changes the directory by its removals alone. -/
theorem effect_files {sweep sweep' : Sweep} {action : Action} {shared shared' : Shared Thread}
    (moved : SweepMoves maxSizeBytes protectedKey sweep action sweep')
    (acted : effect thread action shared = some shared') :
    shared'.files = eraseAll (removal action).toList shared.files := by
  cases moved with
  | removed | lockKeys | unlockKeys | owned | release =>
    obtain ⟨_, _, rfl⟩ := Option.map_eq_some_iff.mp acted
    rfl
  | withinBudget | overBudget | visit =>
    obtain ⟨_, same⟩ := Option.ite_none_right_eq_some.mp acted
    rw [← Option.some.inj same]
    rfl
  | _ =>
    rw [← Option.some.inj acted]
    rfl

/-- Where the sweep stands and what it has left of the directory. -/
structure Swept (maxSizeBytes : UInt64) (protectedKey : String) (before : Shared Thread) (trace : List Action)
    (state : Sweep × Shared Thread) : Prop where
  files : state.2.files = eraseAll (removals trace) before.files
  course : OnCourse maxSizeBytes protectedKey before (removals trace) state

theorem onCourse_step {before shared shared' : Shared Thread} {sweep sweep' : Sweep} {action : Action}
    {removed : List String} (counted : before.currentBytes.toNat = total fileSize before.files)
    (files : shared.files = eraseAll removed before.files)
    (course : OnCourse maxSizeBytes protectedKey before removed (sweep, shared))
    (moved : SweepMoves maxSizeBytes protectedKey sweep action sweep')
    (acted : effect thread action shared = some shared')
    (undisturbed : Undisturbed shared.files sweep action sweep') :
    OnCourse maxSizeBytes protectedKey before (removed ++ (removal action).toList) (sweep', shared') := by
  cases moved with
  | withinBudget within =>
    obtain ⟨rfl, rfl⟩ := course
    obtain ⟨same, _⟩ := Option.ite_none_right_eq_some.mp acted
    refine ⟨rfl, planned_within ?_⟩
    rw [← counted, ← same]
    exact UInt64.le_iff_toNat_le.mp within
  | overBudget =>
    obtain ⟨rfl, rfl⟩ := course
    exact ⟨rfl, List.nodup_nil, List.forall_mem_nil _⟩
  | @visit entries entry unseen =>
    obtain ⟨rfl, distinct, members⟩ := course
    have listed := undisturbed.listed entry rfl
    rw [files] at listed
    refine ⟨rfl, ?_, List.forall_mem_append.mpr ⟨members, List.forall_mem_singleton.mpr listed⟩⟩
    rw [List.map_append, List.map_singleton]
    exact List.nodup_append_comm.mp (List.nodup_cons.mpr ⟨unseen, distinct⟩)
  | scanRaised => exact absurd rfl (undisturbed.complete _ rfl rfl).1
  | @scanWithin entries within =>
    obtain ⟨rfl, distinct, members⟩ := course
    have complete := (undisturbed.complete _ rfl rfl).2
    rw [files] at complete
    have listing := listing_perm distinct members complete
    refine ⟨rfl, planned_within ?_⟩
    rw [← sizes_directoryEntries, ← (listing.map Entry.size).sum_eq]
    exact within
  | @scanOver entries sorted exceeded reordered oldestFirst =>
    obtain ⟨rfl, distinct, members⟩ := course
    have complete := (undisturbed.complete _ rfl rfl).2
    rw [files] at complete
    have listing := listing_perm distinct members complete
    refine ⟨sorted, reordered.trans listing, oldestFirst, ?_⟩
    rw [← sizes_directoryEntries, ← (listing.map Entry.size).sum_eq]
    rfl
  | exhausted => exact ⟨rfl, course⟩
  | budgetMet within =>
    simp only [OnCourse, owed, evictions, evict_within within] at course
    exact ⟨rfl, course⟩
  | skipProtected exceeded own =>
    simpa only [OnCourse, owed, evictions, evict, if_neg exceeded, own, decide_true, if_true, removal,
      Option.toList_none, List.append_nil] using course
  | choose exceeded foreign =>
    simpa only [OnCourse, owed, evictions, evict, if_neg exceeded, foreign, decide_false, Bool.false_eq_true,
      if_false, removal, Option.toList_none, List.append_nil] using course
  | busy => exact absurd rfl (undisturbed.owned _)
  | notRemoved => exact absurd rfl (undisturbed.removed _)
  | removed =>
    simpa only [OnCourse, owed, removal, Option.toList_some, List.map_cons, List.append_assoc,
      List.singleton_append] using course
  | lockKeys | unlockKeys | owned | debitBytes | debitEntry | count | release =>
    simpa only [OnCourse, owed, removal, Option.toList_none, List.append_nil] using course

/-- Every run of a sweep is on course. -/
theorem swept_run {before : Shared Thread} (counted : before.currentBytes.toNat = total fileSize before.files)
    {trace : List Action} {state : Sweep × Shared Thread}
    (run : Run (sweepAlone maxSizeBytes protectedKey thread before) trace state) :
    Swept maxSizeBytes protectedKey before trace state := by
  refine run.invariant (fun state initial => ?_) (fun trace state action state' _ held step => ?_)
  · obtain rfl : state = _ := initial
    exact ⟨rfl, rfl, rfl⟩
  · obtain ⟨moved, acted, undisturbed⟩ := step
    constructor
    · rw [effect_files moved acted, held.files, removals_cons, eraseAll_append]
    · rw [removals_cons]
      exact onCourse_step counted held.files held.course moved acted undisturbed

end Sweeps

/-! ## Oldest first -/

/-- What is planned is a part of the directory, and nothing in it twice. -/
theorem planned_entries {files : Directory} {order chosen : List Entry} (listing : order.Perm (directoryEntries files))
    (part : chosen.Sublist order) :
    (chosen.map Entry.key).Nodup ∧ ∀ entry ∈ chosen, entry ∈ directoryEntries files := by
  constructor
  · have distinct := (listing.map Entry.key).nodup_iff.mpr (nodup_directoryEntries files)
    exact distinct.sublist (part.map Entry.key)
  · intro entry member
    exact listing.mem_iff.mp (part.subset member)

theorem evictions_prefix (maxSizeBytes : UInt64) (protectedKey : String) (order : List Entry) (total : Nat) :
    evictions maxSizeBytes protectedKey order total <+: order.filter (fun entry => entry.key ≠ protectedKey) := by
  simpa only [evictions, decide_not] using evict_prefix order total

/-- What is planned is in the directory, and planned once. -/
theorem planned_keys {maxSizeBytes : UInt64} {protectedKey : String} {files : Directory} {keys : List String}
    (planned : Planned maxSizeBytes protectedKey files keys) : keys.Nodup ∧ ∀ key ∈ keys, key ∈ files := by
  obtain ⟨order, listing, _, rfl⟩ := planned
  have initial := evictions_prefix maxSizeBytes protectedKey order (total fileSize files)
  obtain ⟨distinct, members⟩ := planned_entries listing (initial.sublist.trans List.filter_sublist)
  refine ⟨distinct, fun key isPlanned => ?_⟩
  obtain ⟨entry, chosen, rfl⟩ := List.mem_map.mp isPlanned
  rw [AList.mem_keys, ← keys_directoryEntries]
  exact List.mem_map_of_mem (members entry chosen)

theorem evictsOldest_of_planned {maxSizeBytes : UInt64} {protectedKey : String} {before after : Directory}
    {removed : List String} (gone : after = eraseAll removed before)
    (planned : Planned maxSizeBytes protectedKey before removed) :
    EvictsOldest maxSizeBytes.toNat protectedKey before after removed := by
  obtain ⟨order, listing, sorted, rfl⟩ := planned
  have initial := evictions_prefix maxSizeBytes protectedKey order (total fileSize before)
  have part := initial.sublist.trans List.filter_sublist
  refine ⟨gone, ⟨order, listing, sorted, initial.map Entry.key⟩, ?_, ?_, ?_⟩
  · intro earlier key later parts
    obtain ⟨first, rest, sameEntries, rfl, restKeys⟩ := List.map_eq_append_iff.mp parts
    obtain ⟨entry, later, rfl, rfl, rfl⟩ := List.map_eq_cons_iff.mp restKeys
    have needed := evict_needed sameEntries
    obtain ⟨distinct, members⟩ :=
      planned_entries listing ((List.prefix_append first _).sublist.trans (sameEntries ▸ part))
    have weighed := total_eraseAll members distinct
    omega
  · obtain ⟨distinct, members⟩ := planned_entries listing part
    have weighed := total_eraseAll members distinct
    rcases evict_enough order (total fileSize before) with enough | all
    · refine .inl (Nat.le_trans ?_ enough)
      rw [gone]
      exact Nat.le_sub_of_add_le (by rw [Nat.add_comm]; exact weighed.ge)
    · refine .inr (fun key left => ?_)
      by_contra foreign
      rw [gone, mem_eraseAll, AList.mem_keys, ← keys_directoryEntries] at left
      obtain ⟨notRemoved, isKey⟩ := left
      obtain ⟨entry, inDirectory, rfl⟩ := List.mem_map.mp isKey
      refine notRemoved (List.mem_map_of_mem ?_)
      rw [evictions, all]
      exact List.mem_filter.mpr ⟨listing.mem_iff.mpr inDirectory, by simpa using foreign⟩
  · intro member
    obtain ⟨entry, chosen, own⟩ := List.mem_map.mp member
    have foreign := (List.mem_filter.mp (initial.subset chosen)).2
    exact absurd own (of_decide_eq_true foreign)

/-! ## The end of a sweep -/

/-- How many actions at most a sweep has before it in a directory of so many files. -/
def actionsLeft (files : Nat) : Sweep → Nat
  | .deciding => 10 * files + 3
  | .scanning entries => 9 * files + 2 + (files - entries.length)
  | .choosing entries _ => 9 * entries.length + 1
  | .requesting candidate => 9 * candidate.rest.length + 9
  | .registering candidate => 9 * candidate.rest.length + 8
  | .trying candidate => 9 * candidate.rest.length + 7
  | .removing candidate => 9 * candidate.rest.length + 6
  | .debitingBytes candidate => 9 * candidate.rest.length + 5
  | .debitingEntry candidate => 9 * candidate.rest.length + 4
  | .counting candidate => 9 * candidate.rest.length + 3
  | .releasing candidate => 9 * candidate.rest.length + 2
  | .leaving _ => 0

/-- A sweep has not seen more files than there are. -/
def SeenAtMost (files : Nat) : Sweep → Prop
  | .scanning entries => entries.length ≤ files
  | _ => True

/-- The key whose lock a sweep holds besides its own call's. -/
def lockedKey : Sweep → Option String
  | .removing candidate | .debitingBytes candidate | .debitingEntry candidate | .counting candidate
  | .releasing candidate => some candidate.entry.key
  | _ => none

/-- Whether a sweep holds the mutex of the table of locks. -/
def inLockTable : Sweep → Bool
  | .registering _ => true
  | _ => false

/-- The locks that a sweep may ask for are free, but for those that it holds itself. -/
structure Alone {Thread : Type} (protectedKey : String) (thread : Thread) (state : Sweep × Shared Thread) :
    Prop where
  keys : state.2.keysMutex = if inLockTable state.1 then some (thread, 1) else none
  key : ∀ key, key ≠ protectedKey →
    state.2.keyLocks key = if lockedKey state.1 = some key then some (thread, 1) else none
  foreign : SweepForeign protectedKey state.1

section Ends

variable {Thread : Type} [DecidableEq Thread] {maxSizeBytes : UInt64} {protectedKey : String} {thread : Thread}

theorem actionsLeft_lt {files : Nat} {sweep sweep' : Sweep} {action : Action}
    (moved : SweepMoves maxSizeBytes protectedKey sweep action sweep') (before : SeenAtMost files sweep)
    (after : SeenAtMost files sweep') : actionsLeft files sweep' < actionsLeft files sweep := by
  cases moved with
  | visit =>
    simp only [SeenAtMost, List.length_append, List.length_singleton] at after
    simp only [actionsLeft, List.length_append, List.length_singleton]
    omega
  | scanOver exceeded reordered =>
    have sameLength := reordered.length_eq
    simp only [SeenAtMost] at before
    simp only [actionsLeft]
    omega
  | _ =>
    simp only [actionsLeft, List.length_cons, List.length_nil]
    omega

theorem alone_step {sweep sweep' : Sweep} {action : Action} {shared shared' : Shared Thread}
    (alone : Alone protectedKey thread (sweep, shared))
    (moved : SweepMoves maxSizeBytes protectedKey sweep action sweep')
    (acted : effect thread action shared = some shared') : Alone protectedKey thread (sweep', shared') := by
  have used := effect_locks acted
  refine ⟨?_, fun key isForeign => ?_, sweepMoves_foreign moved alone.foreign⟩
  · have keys := used.keys
    rw [alone.keys] at keys
    cases moved <;> simpa [keysUse, Use.apply, inLockTable, Lock.acquire, eq_comm] using keys
  · have locks := used.key key
    rw [alone.key key isForeign] at locks
    cases moved with
    | @owned candidate | @release candidate =>
      by_cases same : key = candidate.entry.key
      · rw [same] at locks ⊢
        simpa [keyUse, Use.apply, lockedKey, Lock.acquireAgain, eq_comm] using locks
      · have other : candidate.entry.key ≠ key := Ne.symm same
        simpa [keyUse, Use.apply, lockedKey, same, other, eq_comm] using locks
    | _ => simpa [keyUse, Use.apply, lockedKey, eq_comm] using locks

/-- A listing that is not complete can go on. -/
theorem exists_unlisted {files : Directory} {entries : List Entry}
    (incomplete : ¬ ∀ key ∈ files, key ∈ entries.map Entry.key) :
    ∃ entry ∈ directoryEntries files, entry.key ∉ entries.map Entry.key := by
  push Not at incomplete
  obtain ⟨key, isKey, unseen⟩ := incomplete
  rw [AList.mem_keys, ← keys_directoryEntries] at isKey
  obtain ⟨entry, member, rfl⟩ := List.mem_map.mp isKey
  exact ⟨entry, member, unseen⟩

/-- Outside the listing only a lock and a removal can disturb a sweep. -/
def safe : Sweep → Action → Bool
  | .scanning _, _ => false
  | _, .tryLockKey _ owned => owned
  | _, .remove _ removed => removed
  | _, _ => true

/-- A sweep has left or can act. -/
def GoesOn (maxSizeBytes : UInt64) (protectedKey : String) (thread : Thread) (before : Shared Thread)
    (state : Sweep × Shared Thread) : Prop :=
  (∃ succeeded, state.1 = .leaving succeeded) ∨
    ∃ action state', (sweepAlone maxSizeBytes protectedKey thread before).step state action state'

theorem goesOn_of_move {before shared shared' : Shared Thread} {sweep sweep' : Sweep} {action : Action}
    (moved : SweepMoves maxSizeBytes protectedKey sweep action sweep')
    (acted : effect thread action shared = some shared') (isSafe : safe sweep action = true) :
    GoesOn maxSizeBytes protectedKey thread before (sweep, shared) := by
  refine .inr ⟨action, (sweep', shared'), moved, acted, ?_⟩
  cases moved with
  | visit | scanRaised | scanWithin | scanOver | busy | notRemoved => cases isSafe
  | _ => exact ⟨by simp, by simp, by simp, by simp⟩

/-- A listing goes on with an entry that it has not seen, and ends when it has seen all. -/
theorem goesOn_scanning {before shared : Shared Thread} (entries : List Entry) :
    GoesOn maxSizeBytes protectedKey thread before (.scanning entries, shared) := by
  by_cases complete : ∀ key ∈ shared.files, key ∈ entries.map Entry.key
  · by_cases within : (entries.map Entry.size).sum ≤ maxSizeBytes.toNat
    · exact .inr ⟨_, (_, _), .scanWithin within, rfl, by simp, by simpa using complete, by simp, by simp⟩
    · obtain ⟨sorted, reordered, oldestFirst⟩ := exists_sorted entries
      exact .inr ⟨_, (_, _), .scanOver within reordered oldestFirst, rfl, by simp, by simpa using complete,
        by simp, by simp⟩
  · obtain ⟨entry, member, unseen⟩ := exists_unlisted complete
    obtain ⟨file, found, _, size⟩ := mem_directoryEntries.mp member
    have acted : effect thread (.visit entry) shared = some shared := if_pos (by rw [found, ← size]; rfl)
    exact .inr ⟨_, (_, _), .visit unseen, acted, by simpa using member, by simp, by simp, by simp⟩

/-- A sweep that is on course and finds its locks free goes on until it has left. -/
theorem goesOn_of_swept {before shared : Shared Thread} {trace : List Action} {sweep : Sweep}
    (swept : Swept maxSizeBytes protectedKey before trace (sweep, shared))
    (alone : Alone protectedKey thread (sweep, shared)) :
    GoesOn maxSizeBytes protectedKey thread before (sweep, shared) := by
  cases sweep with
  | leaving succeeded => exact .inl ⟨succeeded, rfl⟩
  | scanning entries => exact goesOn_scanning entries
  | deciding =>
    by_cases within : shared.currentBytes ≤ maxSizeBytes
    · exact goesOn_of_move (.withinBudget within) (if_pos rfl) rfl
    · exact goesOn_of_move (.overBudget within) (if_pos rfl) rfl
  | choosing entries total =>
    cases entries with
    | nil => exact goesOn_of_move .exhausted rfl rfl
    | cons entry rest =>
      by_cases within : total ≤ maxSizeBytes.toNat
      · exact goesOn_of_move (.budgetMet within) rfl rfl
      · by_cases own : entry.key = protectedKey
        · exact goesOn_of_move (.skipProtected within own) rfl rfl
        · exact goesOn_of_move (.choose within own) rfl rfl
  | requesting candidate =>
    have free : shared.keysMutex = none := alone.keys
    exact goesOn_of_move .lockKeys (Option.map_eq_some_iff.mpr ⟨_, by rw [free]; rfl, rfl⟩) rfl
  | registering candidate => exact goesOn_of_move .unlockKeys (effect_unlockKeys alone.keys) rfl
  | trying candidate =>
    have free : shared.keyLocks candidate.entry.key = none := alone.key _ alone.foreign
    exact goesOn_of_move .owned (effect_lockKey free) rfl
  | removing candidate =>
    obtain ⟨distinct, members⟩ := planned_keys swept.course
    have left : candidate.entry.key ∈ shared.files := by
      have files : shared.files = eraseAll (removals trace) before.files := swept.files
      have later := (List.nodup_append.mp distinct).2.2
      rw [files, mem_eraseAll]
      exact ⟨fun earlier => later _ earlier _ (List.mem_cons_self ..) rfl,
        members _ (List.mem_append_right _ (List.mem_cons_self ..))⟩
    obtain ⟨file, found⟩ := Option.isSome_iff_exists.mp (AList.lookup_isSome.mpr left)
    exact goesOn_of_move .removed (Option.map_eq_some_iff.mpr ⟨file, found, rfl⟩) rfl
  | debitingBytes => exact goesOn_of_move .debitBytes rfl rfl
  | debitingEntry => exact goesOn_of_move .debitEntry rfl rfl
  | counting => exact goesOn_of_move .count rfl rfl
  | releasing candidate =>
    have held := alone.key candidate.entry.key alone.foreign
    exact goesOn_of_move .release (effect_unlockKey (held.trans (if_pos rfl))) rfl

omit [DecidableEq Thread] in
theorem seenAtMost_of_course {before shared : Shared Thread} {removed : List String} {sweep : Sweep}
    (course : OnCourse maxSizeBytes protectedKey before removed (sweep, shared)) :
    SeenAtMost before.files.entries.length sweep := by
  cases sweep with
  | scanning entries =>
    obtain ⟨_, distinct, members⟩ := course
    have part : entries.map Entry.key ⊆ (directoryEntries before.files).map Entry.key :=
      List.map_subset _ members
    have shorter := (List.subperm_of_subset distinct part).length_le
    simpa only [SeenAtMost, directoryEntries, List.length_map] using shorter
  | _ => trivial

/-- A sweep that finds its locks free, how far it has come and how much it has before it. -/
structure Ending (maxSizeBytes : UInt64) (protectedKey : String) (thread : Thread) (before : Shared Thread)
    (trace : List Action) (state : Sweep × Shared Thread) : Prop where
  swept : Swept maxSizeBytes protectedKey before trace state
  alone : Alone protectedKey thread state
  bounded : trace.length + actionsLeft before.files.entries.length state.1 ≤ 10 * before.files.entries.length + 3

theorem ending_run {before : Shared Thread} (counted : before.currentBytes.toNat = total fileSize before.files)
    (keysFree : before.keysMutex = none) (free : ∀ key, key ≠ protectedKey → before.keyLocks key = none)
    {trace : List Action} {state : Sweep × Shared Thread}
    (run : Run (sweepAlone maxSizeBytes protectedKey thread before) trace state) :
    Ending maxSizeBytes protectedKey thread before trace state := by
  induction run with
  | start initial =>
    refine ⟨swept_run counted (.start initial), ?_, ?_⟩
    · obtain rfl := initial
      exact ⟨keysFree, free, trivial⟩
    · obtain rfl := initial
      simp [actionsLeft]
  | @next trace state state' action run step ending =>
    have swept := swept_run counted (run.next step)
    obtain ⟨moved, acted, _⟩ := step
    refine ⟨swept, alone_step ending.alone moved acted, ?_⟩
    have fewer := actionsLeft_lt moved (seenAtMost_of_course ending.swept.course) (seenAtMost_of_course swept.course)
    have bounded := ending.bounded
    rw [List.length_cons]
    omega

/-- Any run can be gone on with until the sweep has left. -/
theorem exists_leaving {before : Shared Thread} (counted : before.currentBytes.toNat = total fileSize before.files)
    (keysFree : before.keysMutex = none) (free : ∀ key, key ≠ protectedKey → before.keyLocks key = none)
    {trace : List Action} {state : Sweep × Shared Thread}
    (run : Run (sweepAlone maxSizeBytes protectedKey thread before) trace state) :
    ∃ trace succeeded after,
      Run (sweepAlone maxSizeBytes protectedKey thread before) trace (.leaving succeeded, after) := by
  have ending := ending_run counted keysFree free run
  rcases goesOn_of_swept ending.swept ending.alone with ⟨succeeded, left⟩ | ⟨action, state', step⟩
  · obtain ⟨sweep, shared⟩ := state
    obtain rfl : sweep = _ := left
    exact ⟨trace, succeeded, shared, run⟩
  · have next := ending_run counted keysFree free (run.next step)
    have fewer := actionsLeft_lt step.1 (seenAtMost_of_course ending.swept.course)
      (seenAtMost_of_course next.swept.course)
    exact exists_leaving counted keysFree free (run.next step)
termination_by actionsLeft before.files.entries.length state.1

/-- An undisturbed sweep ends, and has then removed the oldest files that it may remove, no more of them than
make the rest fit. -/
theorem sweep_evicts_oldest (maxSizeBytes : UInt64) (protectedKey : String) (thread : Thread)
    (before : Shared Thread) (counted : before.currentBytes.toNat = total fileSize before.files)
    (keysFree : before.keysMutex = none) (free : ∀ key, key ≠ protectedKey → before.keyLocks key = none) :
    (∀ trace state, Run (sweepAlone maxSizeBytes protectedKey thread before) trace state →
      trace.length ≤ 10 * before.files.entries.length + 3 ∧
        GoesOn maxSizeBytes protectedKey thread before state) ∧
    ∀ trace succeeded after,
      Run (sweepAlone maxSizeBytes protectedKey thread before) trace (.leaving succeeded, after) →
        succeeded = true ∧
          EvictsOldest maxSizeBytes.toNat protectedKey before.files after.files (removals trace) := by
  constructor
  · intro trace state run
    have ending := ending_run counted keysFree free run
    exact ⟨Nat.le_trans (Nat.le_add_right _ _) ending.bounded, goesOn_of_swept ending.swept ending.alone⟩
  · intro trace succeeded after run
    obtain ⟨files, isSuccess, planned⟩ := swept_run counted run
    exact ⟨isSuccess, evictsOldest_of_planned files planned⟩

/-- Two files, one byte over a budget of three. -/
def crowdedCache : Shared Unit :=
  { emptyCache Unit with
    files := AList.insert "older.cache" ⟨[1], 3⟩ (AList.insert "newer.cache" ⟨[1, 2, 3], 5⟩ ∅)
    currentBytes := 4
    currentEntries := 2 }

theorem sweep_evicts_oldest_crowded :
    ∃ trace after, Run (sweepAlone 3 "newer.cache" () crowdedCache) trace (.leaving true, after) ∧
      EvictsOldest 3 "newer.cache" crowdedCache.files after.files (removals trace) := by
  obtain ⟨trace, succeeded, after, run⟩ :=
    @exists_leaving Unit _ 3 "newer.cache" () crowdedCache rfl rfl (fun _ _ => rfl) _ _ (.start rfl)
  obtain ⟨rfl, evicts⟩ :=
    (sweep_evicts_oldest 3 "newer.cache" () crowdedCache rfl rfl (fun _ _ => rfl)).2 trace succeeded after run
  exact ⟨trace, after, run, evicts⟩

end Ends

end KernelLake.NvmeEviction
