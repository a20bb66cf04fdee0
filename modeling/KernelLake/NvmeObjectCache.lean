import KernelLake.Library.Interleavings
import KernelLake.Library.Registries
import Mathlib.Data.Prod.Basic

/-!
The local cache of remote objects: a directory of files named after a hash of each object's URI.

Any number of threads read objects through the cache. Each runs the program below one action at a time;
actions of different threads interleave freely, and an action either touches one lock, one counter or
one file, or it touches nothing that is shared. A failed read, write, rename or removal is an action of
its own. Temporary files are not modelled: their names are never reused and never those of an entry.
-/

namespace KernelLake.NvmeObjectCache

open KernelLake.Library.Interleavings KernelLake.Library.Registries

/-! ## Names -/

/-- FNV-1a of a byte string, with 64 bits. -/
def fnv1a64 (data : List UInt8) : UInt64 :=
  data.foldl (fun hash byte => (hash ^^^ byte.toUInt64) * 1099511628211) 14695981039346656037

def hexDigits (hash : UInt64) : List Char :=
  (List.range 16).map fun place => Nat.digitChar ((hash.toNat / 16 ^ (15 - place)) % 16)

def cacheFileExtension : String := ".cache"

/-- The name of an object's file: the hash of its URI in 16 hexadecimal digits. -/
def cacheFileName (uri : String) : String :=
  String.ofList (hexDigits (fnv1a64 uri.toUTF8.toList)) ++ cacheFileExtension

/-! ## Files and objects -/

abbrev Bytes := List UInt8

structure CachedFile where
  contents : Bytes
  mtime : Int

/-- The entries of the cache directory. -/
abbrev Directory := Registry String CachedFile

/-- What a file adds to the number of bytes in the directory. -/
def fileSize (_ : String) (file : CachedFile) : Nat :=
  file.contents.length

/-- An open object of the backend: its bytes, and the size it claims to have. -/
structure RemoteObject where
  contents : Bytes
  size : UInt64

/-- What the cache is configured and connected with. -/
structure Setting where
  maxSizeBytes : UInt64
  /-- The objects that opening a URI can yield. -/
  backend : String → RemoteObject → Prop
  /-- The URIs that are ever read. -/
  requested : String → Prop
  /-- The directories that the cache may find when it starts. -/
  found : Directory → Prop

/-! ## What threads share -/

/-- The locks, the directory and the counters. -/
structure Shared (Thread : Type) where
  keysMutex : Lock Thread
  keyLocks : String → Lock Thread
  evictionMutex : Lock Thread
  files : Directory
  hits : UInt64
  misses : UInt64
  evictions : UInt64
  currentBytes : UInt64
  currentEntries : UInt64

/-- An entry that a sweep has seen in the directory. -/
structure Entry where
  key : String
  mtime : Int
  size : Nat

inductive Action
  | lockKeys
  | unlockKeys
  | lockKey (key : String)
  | tryLockKey (key : String) (owned : Bool)
  | unlockKey (key : String)
  | lockEviction
  | unlockEviction
  | stat (key : String) (present : Bool)
  | rename (key : String) (contents : Bytes) (mtime : Int)
  | remove (key : String) (removed : Bool)
  | touch (key : String) (mtime : Int)
  | openFile (key : String) (contents : Bytes)
  | visit (entry : Entry)
  | loadBytes (bytes : UInt64)
  | addBytes (size : Nat)
  | addEntry
  | subBytes (size : Nat)
  | subEntry
  | countHit
  | countMiss
  | countEviction
  | internal

/-- A file system has room for less than this many bytes, and for fewer files. -/
def capacity : Nat := 2 ^ 63

section Effects

variable {Thread : Type} [DecidableEq Thread]

def Shared.changeKeyLock (shared : Shared Thread) (key : String)
    (change : Lock Thread → Option (Lock Thread)) : Option (Shared Thread) :=
  (change (shared.keyLocks key)).map fun lock =>
    { shared with keyLocks := fun other => if other = key then lock else shared.keyLocks other }

/-- What an action does to the shared data. A lock that is not to be had, and an outcome that the directory
does not bear out, make an action impossible. -/
def effect (thread : Thread) (action : Action) (shared : Shared Thread) : Option (Shared Thread) :=
  match action with
  | .lockKeys => (shared.keysMutex.acquire thread).map fun lock => { shared with keysMutex := lock }
  | .unlockKeys => (shared.keysMutex.release thread).map fun lock => { shared with keysMutex := lock }
  | .lockKey key => shared.changeKeyLock key (Lock.acquireAgain thread)
  | .tryLockKey key owned =>
    if owned then shared.changeKeyLock key (Lock.acquireAgain thread) else some shared
  | .unlockKey key => shared.changeKeyLock key (Lock.release thread)
  | .lockEviction =>
    (shared.evictionMutex.acquire thread).map fun lock => { shared with evictionMutex := lock }
  | .unlockEviction =>
    (shared.evictionMutex.release thread).map fun lock => { shared with evictionMutex := lock }
  | .stat key present => if present = (shared.files.lookup key).isSome then some shared else none
  | .rename key contents mtime =>
    if total fileSize shared.files + contents.length < capacity ∧
        shared.files.entries.length + 1 < capacity then
      some { shared with files := shared.files.insert key ⟨contents, mtime⟩ }
    else none
  | .remove key removed =>
    if removed then (shared.files.lookup key).map fun _ => { shared with files := shared.files.erase key }
    else some shared
  | .touch key mtime =>
    (shared.files.lookup key).map fun file =>
      { shared with files := shared.files.insert key { file with mtime } }
  | .openFile key contents =>
    if (shared.files.lookup key).map CachedFile.contents = some contents then some shared else none
  | .visit entry =>
    if (shared.files.lookup entry.key).map (fileSize entry.key) = some entry.size then some shared else none
  | .loadBytes bytes => if bytes = shared.currentBytes then some shared else none
  | .addBytes size => some { shared with currentBytes := shared.currentBytes + UInt64.ofNat size }
  | .addEntry => some { shared with currentEntries := shared.currentEntries + 1 }
  | .subBytes size => some { shared with currentBytes := shared.currentBytes - UInt64.ofNat size }
  | .subEntry => some { shared with currentEntries := shared.currentEntries - 1 }
  | .countHit => some { shared with hits := shared.hits + 1 }
  | .countMiss => some { shared with misses := shared.misses + 1 }
  | .countEviction => some { shared with evictions := shared.evictions + 1 }
  | .internal => some shared

end Effects

/-! ## The program of a thread -/

/-- The entry that a sweep is at, the entries after it and the bytes it still counts in the directory. -/
structure Candidate where
  entry : Entry
  rest : List Entry
  total : Nat

/-- Where `evict_if_over_budget` is while it holds the eviction mutex. -/
inductive Sweep
  | deciding
  | scanning (entries : List Entry)
  | choosing (entries : List Entry) (total : Nat)
  | requesting (candidate : Candidate)
  | registering (candidate : Candidate)
  | trying (candidate : Candidate)
  | removing (candidate : Candidate)
  | debitingBytes (candidate : Candidate)
  | debitingEntry (candidate : Candidate)
  | counting (candidate : Candidate)
  | releasing (candidate : Candidate)
  | leaving (succeeded : Bool)

/-- Where `get_or_populate` is while it holds the lock of its object's key. A result is missing where the
call raises. -/
inductive Task
  | checking
  | counting (present : Bool)
  | fetching
  | creating (remote : RemoteObject)
  | copying (remote : RemoteObject) (offset : Nat)
  | closing (contents : Bytes)
  | publishing (contents : Bytes)
  | creditingBytes (size : Nat)
  | creditingEntry
  | budgeting
  | sweeping (sweep : Sweep)
  | touching
  | opening
  | releasing (result : Option Bytes)

inductive Phase
  | idle
  | requesting (uri : String)
  | registering (uri : String)
  | waiting (uri : String)
  | serving (uri : String) (task : Task)

/-- The most bytes read at once. -/
def chunkBytes : Nat := 64 * 1024 * 1024

/-- The number of bytes to copy, read as a signed number of 64 bits. -/
def copyTotal (remote : RemoteObject) : Int := remote.size.toInt64.toInt

/-- The moves of `evict_if_over_budget` in a call that must keep its own key's file. -/
inductive SweepMoves (maxSizeBytes : UInt64) (protectedKey : String) : Sweep → Action → Sweep → Prop
  | withinBudget {bytes : UInt64} (within : bytes ≤ maxSizeBytes) :
      SweepMoves maxSizeBytes protectedKey .deciding (.loadBytes bytes) (.leaving true)
  | overBudget {bytes : UInt64} (exceeded : ¬ bytes ≤ maxSizeBytes) :
      SweepMoves maxSizeBytes protectedKey .deciding (.loadBytes bytes) (.scanning [])
  | visit {entries : List Entry} {entry : Entry} (unseen : entry.key ∉ entries.map Entry.key) :
      SweepMoves maxSizeBytes protectedKey (.scanning entries) (.visit entry) (.scanning (entries ++ [entry]))
  | scanRaised {entries : List Entry} :
      SweepMoves maxSizeBytes protectedKey (.scanning entries) .internal (.leaving false)
  | scanWithin {entries : List Entry} (within : (entries.map Entry.size).sum ≤ maxSizeBytes.toNat) :
      SweepMoves maxSizeBytes protectedKey (.scanning entries) .internal (.leaving true)
  | scanOver {entries sorted : List Entry} (exceeded : ¬ (entries.map Entry.size).sum ≤ maxSizeBytes.toNat)
      (reordered : sorted.Perm entries) (oldestFirst : sorted.Pairwise fun a b => a.mtime ≤ b.mtime) :
      SweepMoves maxSizeBytes protectedKey (.scanning entries) .internal
        (.choosing sorted (entries.map Entry.size).sum)
  | exhausted {total : Nat} :
      SweepMoves maxSizeBytes protectedKey (.choosing [] total) .internal (.leaving true)
  | budgetMet {entry : Entry} {rest : List Entry} {total : Nat} (within : total ≤ maxSizeBytes.toNat) :
      SweepMoves maxSizeBytes protectedKey (.choosing (entry :: rest) total) .internal (.leaving true)
  | skipProtected {entry : Entry} {rest : List Entry} {total : Nat} (exceeded : ¬ total ≤ maxSizeBytes.toNat)
      (own : entry.key = protectedKey) :
      SweepMoves maxSizeBytes protectedKey (.choosing (entry :: rest) total) .internal (.choosing rest total)
  | choose {entry : Entry} {rest : List Entry} {total : Nat} (exceeded : ¬ total ≤ maxSizeBytes.toNat)
      (foreign : entry.key ≠ protectedKey) :
      SweepMoves maxSizeBytes protectedKey (.choosing (entry :: rest) total) .internal
        (.requesting ⟨entry, rest, total⟩)
  | lockKeys {candidate : Candidate} :
      SweepMoves maxSizeBytes protectedKey (.requesting candidate) .lockKeys (.registering candidate)
  | unlockKeys {candidate : Candidate} :
      SweepMoves maxSizeBytes protectedKey (.registering candidate) .unlockKeys (.trying candidate)
  | busy {candidate : Candidate} :
      SweepMoves maxSizeBytes protectedKey (.trying candidate) (.tryLockKey candidate.entry.key false)
        (.choosing candidate.rest candidate.total)
  | owned {candidate : Candidate} :
      SweepMoves maxSizeBytes protectedKey (.trying candidate) (.tryLockKey candidate.entry.key true)
        (.removing candidate)
  | notRemoved {candidate : Candidate} :
      SweepMoves maxSizeBytes protectedKey (.removing candidate) (.remove candidate.entry.key false)
        (.releasing candidate)
  | removed {candidate : Candidate} :
      SweepMoves maxSizeBytes protectedKey (.removing candidate) (.remove candidate.entry.key true)
        (.debitingBytes { candidate with total := candidate.total - candidate.entry.size })
  | debitBytes {candidate : Candidate} :
      SweepMoves maxSizeBytes protectedKey (.debitingBytes candidate) (.subBytes candidate.entry.size)
        (.debitingEntry candidate)
  | debitEntry {candidate : Candidate} :
      SweepMoves maxSizeBytes protectedKey (.debitingEntry candidate) .subEntry (.counting candidate)
  | count {candidate : Candidate} :
      SweepMoves maxSizeBytes protectedKey (.counting candidate) .countEviction (.releasing candidate)
  | release {candidate : Candidate} :
      SweepMoves maxSizeBytes protectedKey (.releasing candidate) (.unlockKey candidate.entry.key)
        (.choosing candidate.rest candidate.total)

/-- The moves of `get_or_populate`, `populate` included, from when it holds the lock of its key up to the release of
the lock. -/
inductive TaskMoves (setting : Setting) (uri : String) : Task → Action → Task → Prop
  | stat {present : Bool} :
      TaskMoves setting uri .checking (.stat (cacheFileName uri) present) (.counting present)
  | hit : TaskMoves setting uri (.counting true) .countHit .touching
  | miss : TaskMoves setting uri (.counting false) .countMiss .fetching
  | fetchFailed : TaskMoves setting uri .fetching .internal (.releasing none)
  | fetched {remote : RemoteObject} (yields : setting.backend uri remote) :
      TaskMoves setting uri .fetching .internal (.creating remote)
  | createFailed {remote : RemoteObject} : TaskMoves setting uri (.creating remote) .internal (.releasing none)
  | created {remote : RemoteObject} : TaskMoves setting uri (.creating remote) .internal (.copying remote 0)
  | copyFailed {remote : RemoteObject} {offset : Nat} (more : offset < copyTotal remote) :
      TaskMoves setting uri (.copying remote offset) .internal (.releasing none)
  | copyChunk {remote : RemoteObject} {offset size : Nat} (more : offset < copyTotal remote) (some : 0 < size)
      (wanted : (size : Int) ≤ min (chunkBytes : Int) (copyTotal remote - offset))
      (available : offset + size ≤ remote.contents.length) :
      TaskMoves setting uri (.copying remote offset) .internal (.copying remote (offset + size))
  | shortRead {remote : RemoteObject} {offset : Nat} (more : offset < copyTotal remote)
      (drained : remote.contents.length ≤ offset) :
      TaskMoves setting uri (.copying remote offset) .internal (.closing (remote.contents.take offset))
  | copied {remote : RemoteObject} {offset : Nat} (complete : ¬ offset < copyTotal remote) :
      TaskMoves setting uri (.copying remote offset) .internal (.closing (remote.contents.take offset))
  | closeFailed {contents : Bytes} :
      TaskMoves setting uri (.closing contents) .internal (.releasing none)
  | closed {contents : Bytes} : TaskMoves setting uri (.closing contents) .internal (.publishing contents)
  | renameFailed {contents : Bytes} : TaskMoves setting uri (.publishing contents) .internal (.releasing none)
  | renamed {contents : Bytes} {mtime : Int} :
      TaskMoves setting uri (.publishing contents) (.rename (cacheFileName uri) contents mtime)
        (.creditingBytes contents.length)
  | creditBytes {size : Nat} : TaskMoves setting uri (.creditingBytes size) (.addBytes size) .creditingEntry
  | creditEntry : TaskMoves setting uri .creditingEntry .addEntry .budgeting
  | unbounded (noBudget : setting.maxSizeBytes = 0) : TaskMoves setting uri .budgeting .internal .touching
  | lockEviction (budget : setting.maxSizeBytes ≠ 0) :
      TaskMoves setting uri .budgeting .lockEviction (.sweeping .deciding)
  | sweep {sweep sweep' : Sweep} {action : Action}
      (moves : SweepMoves setting.maxSizeBytes (cacheFileName uri) sweep action sweep') :
      TaskMoves setting uri (.sweeping sweep) action (.sweeping sweep')
  | swept : TaskMoves setting uri (.sweeping (.leaving true)) .unlockEviction .touching
  | sweepRaised : TaskMoves setting uri (.sweeping (.leaving false)) .unlockEviction (.releasing none)
  | touched {mtime : Int} : TaskMoves setting uri .touching (.touch (cacheFileName uri) mtime) .opening
  | touchFailed : TaskMoves setting uri .touching .internal .opening
  | opened {contents : Bytes} :
      TaskMoves setting uri .opening (.openFile (cacheFileName uri) contents) (.releasing (some contents))
  | openFailed : TaskMoves setting uri .opening .internal (.releasing none)

/-- The moves of a thread that calls `get_or_populate` any number of times. -/
inductive Moves (setting : Setting) : Phase → Action → Phase → Prop
  | call {uri : String} (wanted : setting.requested uri) : Moves setting .idle .internal (.requesting uri)
  | lockKeys {uri : String} : Moves setting (.requesting uri) .lockKeys (.registering uri)
  | unlockKeys {uri : String} : Moves setting (.registering uri) .unlockKeys (.waiting uri)
  | lockKey {uri : String} :
      Moves setting (.waiting uri) (.lockKey (cacheFileName uri)) (.serving uri .checking)
  | task {uri : String} {task task' : Task} {action : Action}
      (moves : TaskMoves setting uri task action task') :
      Moves setting (.serving uri task) action (.serving uri task')
  | finish {uri : String} {result : Option Bytes} :
      Moves setting (.serving uri (.releasing result)) (.unlockKey (cacheFileName uri)) .idle

/-- The cache as `seed_metrics_from_existing_directory` leaves it: every lock is free and the counters
count what is in the directory. -/
structure Seeded {Thread : Type} (setting : Setting) (shared : Shared Thread) : Prop where
  found : setting.found shared.files
  keysMutex : shared.keysMutex = none
  keyLocks : ∀ key, shared.keyLocks key = none
  evictionMutex : shared.evictionMutex = none
  currentBytes : shared.currentBytes = UInt64.ofNat (total fileSize shared.files)
  currentEntries : shared.currentEntries = UInt64.ofNat shared.files.entries.length
  bytesFit : total fileSize shared.files < capacity
  entriesFit : shared.files.entries.length < capacity

/-- Threads that call `get_or_populate` on one cache. -/
def program (setting : Setting) (Thread : Type) [DecidableEq Thread] :
    Program Thread Phase Action (Shared Thread) where
  initial := Seeded setting
  idle := .idle
  moves := Moves setting
  effect := effect

abbrev State (Thread : Type) := Threads Thread Phase (Shared Thread)

def system (setting : Setting) (Thread : Type) [DecidableEq Thread] :
    System (State Thread) (Thread × Action) :=
  (program setting Thread).system

/-! ## The start of a run -/

section Start

variable {Thread : Type}

/-- A cache over an empty directory. -/
def emptyCache (Thread : Type) : Shared Thread where
  keysMutex := none
  keyLocks _ := none
  evictionMutex := none
  files := ∅
  hits := 0
  misses := 0
  evictions := 0
  currentBytes := 0
  currentEntries := 0

theorem seeded_emptyCache {setting : Setting} (found : setting.found ∅) :
    Seeded setting (emptyCache Thread) where
  found := found
  keysMutex := rfl
  keyLocks _ := rfl
  evictionMutex := rfl
  currentBytes := rfl
  currentEntries := rfl
  bytesFit := Nat.two_pow_pos 63
  entriesFit := Nat.two_pow_pos 63

/-- No budget, and a backend with an object of one byte under every URI. -/
def tinySetting : Setting where
  maxSizeBytes := 0
  backend _ remote := remote = ⟨[7], 1⟩
  requested _ := True
  found _ := True

/-- One thread is in a phase and the others are idle. -/
def alone [DecidableEq Thread] (thread : Thread) (phase : Phase) (shared : Shared Thread) : State Thread where
  shared := shared
  phases other := if other = thread then phase else .idle

variable [DecidableEq Thread] {setting : Setting} {thread : Thread} {phase phase' : Phase} {action : Action}
  {shared shared' : Shared Thread}

theorem alone_start (seeded : Seeded setting shared) :
    Reachable (system setting Thread) (alone thread .idle shared) :=
  ⟨[], .start ⟨seeded, fun _ => ite_self _⟩⟩

/-- A run of one thread goes on as its program does. -/
theorem alone_next (reachable : Reachable (system setting Thread) (alone thread phase shared))
    (moved : Moves setting phase action phase') (acted : effect thread action shared = some shared') :
    Reachable (system setting Thread) (alone thread phase' shared') := by
  refine @Reachable.next _ _ (system setting Thread) (alone thread phase shared) _ (thread, action)
    reachable ?_
  refine ⟨?_, acted, fun other isOther => ?_⟩
  · simp only [alone, if_true]
    exact moved
  · simp only [alone, if_neg isOther]

theorem effect_unlockKeys (held : shared.keysMutex = some (thread, 1)) :
    effect thread .unlockKeys shared = some { shared with keysMutex := none } := by
  simp [effect, held]

theorem effect_unlockKey {key : String} (held : shared.keyLocks key = some (thread, 1)) :
    effect thread (.unlockKey key) shared =
      some { shared with keyLocks := fun other => if other = key then none else shared.keyLocks other } := by
  simp [effect, Shared.changeKeyLock, held]

theorem effect_lockKey {key : String} (free : shared.keyLocks key = none) :
    effect thread (.lockKey key) shared =
      some { shared with
        keyLocks := fun other => if other = key then some (thread, 1) else shared.keyLocks other } := by
  simp [effect, Shared.changeKeyLock, free, Lock.acquireAgain]

/-- A call that can have its locks gets as far as looking for its file. -/
theorem alone_looks {uri : String} (reachable : Reachable (system setting Thread) (alone thread .idle shared))
    (wanted : setting.requested uri) (keysFree : shared.keysMutex = none)
    (free : shared.keyLocks (cacheFileName uri) = none) :
    Reachable (system setting Thread) (alone thread (.serving uri .checking)
      { shared with
        keyLocks := fun other =>
          if other = cacheFileName uri then some (thread, 1) else shared.keyLocks other }) := by
  have called := alone_next reachable (.call wanted) rfl
  have registered := alone_next called .lockKeys (Option.map_eq_some_iff.mpr ⟨_, by rw [keysFree]; rfl, rfl⟩)
  have unlocked := alone_next registered .unlockKeys (effect_unlockKeys rfl)
  have locked := alone_next unlocked .lockKey (effect_lockKey free)
  have same : (none : Lock Thread) = shared.keysMutex := keysFree.symm
  rw [same] at locked
  exact locked

/-- The cache while a call serves an object of a few bytes that it has just published. -/
def publishedCache (thread : Thread) (key : String) (contents : Bytes) : Shared Thread :=
  { emptyCache Thread with
    keyLocks := fun other => if other = key then some (thread, 1) else none
    files := AList.insert key ⟨contents, 0⟩ ∅
    misses := 1
    currentBytes := UInt64.ofNat contents.length
    currentEntries := 1 }

/-- Reading one small object through an empty cache publishes it. -/
theorem alone_publishes {uri : String} {byte : UInt8} (found : setting.found ∅)
    (wanted : setting.requested uri) (yields : setting.backend uri ⟨[byte], 1⟩) :
    Reachable (system setting Thread)
      (alone thread (.serving uri .budgeting) (publishedCache thread (cacheFileName uri) [byte])) := by
  have looking :=
    @alone_looks Thread _ setting thread _ uri (alone_start (seeded_emptyCache found)) wanted rfl rfl
  have missed := alone_next (alone_next looking (.task (@TaskMoves.stat _ _ false)) rfl) (.task .miss) rfl
  have created := alone_next (alone_next missed (.task (.fetched yields)) rfl) (.task .created) rfl
  have isOne : copyTotal ⟨[byte], 1⟩ = 1 := rfl
  have chunk : TaskMoves setting uri (.copying ⟨[byte], 1⟩ 0) .internal (.copying ⟨[byte], 1⟩ (0 + 1)) :=
    .copyChunk (by rw [isOne]; decide) Nat.one_pos (by rw [isOne]; decide) (Nat.le_refl 1)
  have complete : TaskMoves setting uri (.copying ⟨[byte], 1⟩ (0 + 1)) .internal (.closing [byte]) :=
    .copied (by rw [isOne]; decide)
  have copied := alone_next (alone_next created (.task chunk) rfl) (.task complete) rfl
  have published := alone_next (alone_next copied (.task .closed) rfl) (.task (@TaskMoves.renamed _ _ _ 0)) rfl
  have credited := alone_next (alone_next published (.task .creditBytes) rfl) (.task .creditEntry) rfl
  exact credited

/-- The cache after that call. -/
def readCache (thread : Thread) (key : String) (contents : Bytes) : Shared Thread :=
  { publishedCache thread key contents with keyLocks := fun _ => none }

theorem effect_openFile_of {key : String} {file : CachedFile} (isFile : shared.files.lookup key = some file) :
    effect thread (.openFile key file.contents) shared = some shared :=
  if_pos (by rw [isFile]; rfl)

theorem alone_reads {uri : String} {byte : UInt8} (unbounded : setting.maxSizeBytes = 0)
    (found : setting.found ∅) (wanted : setting.requested uri) (yields : setting.backend uri ⟨[byte], 1⟩) :
    Reachable (system setting Thread)
      (alone thread .idle (readCache thread (cacheFileName uri) [byte])) := by
  have published := @alone_publishes Thread _ setting thread uri byte found wanted yields
  have touching := alone_next published (.task (.unbounded unbounded)) rfl
  have opening := alone_next touching (.task .touchFailed) rfl
  have isFile : (publishedCache thread (cacheFileName uri) [byte]).files.lookup (cacheFileName uri) =
      some ⟨[byte], 0⟩ := AList.lookup_insert _
  have releasing := alone_next opening (.task .opened) (effect_openFile_of isFile)
  have finished := alone_next releasing .finish (effect_unlockKey (if_pos rfl))
  have released : (fun other : String => if other = cacheFileName uri then none
      else (publishedCache thread (cacheFileName uri) [byte]).keyLocks other) = fun _ => none := by
    funext other
    by_cases same : other = cacheFileName uri
    · exact if_pos same
    · rw [if_neg same]
      exact if_neg same
  rw [released] at finished
  exact finished

end Start

/-! ## Two threads -/

/-- Room for one byte, and a backend with an object of one byte under every URI. -/
def crowdedSetting : Setting :=
  { tinySetting with maxSizeBytes := 1 }

/-- A cache over the file of an older object. -/
def olderCache (older : String) : Shared Bool :=
  { emptyCache Bool with
    files := AList.insert older ⟨[1], 0⟩ ∅
    currentBytes := 1
    currentEntries := 1 }

theorem seeded_olderCache (older : String) : Seeded crowdedSetting (olderCache older) where
  found := trivial
  keysMutex := rfl
  keyLocks _ := rfl
  evictionMutex := rfl
  currentBytes := rfl
  currentEntries := rfl
  bytesFit := (by decide : 1 < 2 ^ 63)
  entriesFit := (by decide : 1 < 2 ^ 63)

theorem effect_visit_of {Thread : Type} [DecidableEq Thread] {thread : Thread} {shared : Shared Thread}
    {entry : Entry} {file : CachedFile} (isFile : shared.files.lookup entry.key = some file)
    (size : file.contents.length = entry.size) : effect thread (.visit entry) shared = some shared :=
  if_pos (by rw [isFile, ← size]; rfl)

/-- The cache when a call has just published its object over the budget. -/
def creditedCache (older key : String) : Shared Bool :=
  { olderCache older with
    keyLocks := fun other => if other = key then some (true, 1) else none
    files := AList.insert key ⟨[7], 1⟩ (olderCache older).files
    misses := 1
    currentBytes := 2
    currentEntries := 2 }

/-- The cache while the call's sweep holds the lock of the older file. -/
def evictingCache (older key : String) : Shared Bool :=
  { creditedCache older key with
    keyLocks := fun other => if other = older then some (true, 1) else (creditedCache older key).keyLocks other
    evictionMutex := some (true, 1) }

/-- The file of an older object, and after it the call's own, as the sweep sees them. -/
def olderCandidate (older key : String) : Candidate :=
  ⟨⟨older, 0, 1⟩, [⟨key, 1, 1⟩], 2⟩

/-- A call is about to evict the older file, and another one waits for the lock of the same object. -/
def evictingState (older uri : String) : State Bool where
  shared := evictingCache older (cacheFileName uri)
  phases thread :=
    if thread then .serving uri (.sweeping (.removing (olderCandidate older (cacheFileName uri)))) else .waiting uri

/-- The cache when the sweep has removed the older file. -/
def evictedCache (older key : String) : Shared Bool :=
  { evictingCache older key with files := (evictingCache older key).files.erase older }

/-- The file is removed and not yet debited. -/
def evictedState (older uri : String) : State Bool where
  shared := evictedCache older (cacheFileName uri)
  phases thread :=
    if thread then
      .serving uri (.sweeping (.debitingBytes { olderCandidate older (cacheFileName uri) with total := 1 }))
    else .waiting uri

/-- The call has returned, and the other one still waits. -/
def relievedState (older uri : String) : State Bool where
  shared :=
    { evictedCache older (cacheFileName uri) with
      keyLocks := fun other =>
        if other = cacheFileName uri then none
        else if other = older then none
        else (evictedCache older (cacheFileName uri)).keyLocks other
      evictionMutex := none
      evictions := 1
      currentBytes := (evictedCache older (cacheFileName uri)).currentBytes - UInt64.ofNat 1
      currentEntries := (evictedCache older (cacheFileName uri)).currentEntries - 1 }
  phases thread := if thread then .idle else .waiting uri

/-- A state is the same under phases that are the same for every thread. -/
theorem run_phases {setting : Setting} {trace : List (Bool × Action)} {shared : Shared Bool}
    {phases phases' : Bool → Phase} (run : Run (system setting Bool) trace ⟨shared, phases⟩)
    (same : ∀ thread, phases thread = phases' thread) : Run (system setting Bool) trace ⟨shared, phases'⟩ :=
  (funext same : phases = phases') ▸ run

theorem effect_remove {Thread : Type} [DecidableEq Thread] {thread : Thread} {shared : Shared Thread} {key : String}
    {file : CachedFile} (isFile : shared.files.lookup key = some file) :
    effect thread (.remove key true) shared = some { shared with files := shared.files.erase key } :=
  Option.map_eq_some_iff.mpr ⟨file, isFile, rfl⟩

section Crowded

variable {older uri : String} (foreign : cacheFileName uri ≠ older)
include foreign

theorem reachable_credited : Reachable (system crowdedSetting Bool)
    ⟨creditedCache older (cacheFileName uri), Function.update (fun _ => .idle) true (.serving uri .budgeting)⟩ := by
  have start : Run (system crowdedSetting Bool) [] ⟨olderCache older, fun _ => .idle⟩ :=
    .start ⟨seeded_olderCache older, fun _ => rfl⟩
  have idle : Run (system crowdedSetting Bool) _ _ := run_focus start true rfl
  have called : Run (system crowdedSetting Bool) _ _ := run_update idle (@Moves.call crowdedSetting uri trivial) rfl
  have registered : Run (system crowdedSetting Bool) _ _ := run_update called .lockKeys rfl
  have unlocked : Run (system crowdedSetting Bool) _ _ := run_update registered .unlockKeys rfl
  have looking : Run (system crowdedSetting Bool) _ _ := run_update unlocked .lockKey rfl
  have absent : (olderCache older).files.lookup (cacheFileName uri) = none := by
    rw [olderCache, AList.lookup_insert_ne foreign]
    rfl
  have missed : Run (system crowdedSetting Bool) _ _ :=
    run_update looking (.task (@TaskMoves.stat _ _ false)) (by
      change (if false = ((olderCache older).files.lookup (cacheFileName uri)).isSome then _ else _) = _
      rw [absent]
      rfl)
  have counted : Run (system crowdedSetting Bool) _ _ := run_update missed (.task .miss) rfl
  have fetched : Run (system crowdedSetting Bool) _ _ := run_update counted (.task (.fetched rfl)) rfl
  have created : Run (system crowdedSetting Bool) _ _ := run_update fetched (.task .created) rfl
  have isOne : copyTotal ⟨[7], 1⟩ = 1 := rfl
  have chunk : TaskMoves crowdedSetting uri (.copying ⟨[7], 1⟩ 0) .internal (.copying ⟨[7], 1⟩ (0 + 1)) :=
    .copyChunk (by rw [isOne]; decide) Nat.one_pos (by rw [isOne]; decide) (Nat.le_refl 1)
  have complete : TaskMoves crowdedSetting uri (.copying ⟨[7], 1⟩ (0 + 1)) .internal (.closing [7]) :=
    .copied (by rw [isOne]; decide)
  have copied : Run (system crowdedSetting Bool) _ _ := run_update created (.task chunk) rfl
  have closing : Run (system crowdedSetting Bool) _ _ := run_update copied (.task complete) rfl
  have closed : Run (system crowdedSetting Bool) _ _ := run_update closing (.task .closed) rfl
  have renamed : Run (system crowdedSetting Bool) _ _ :=
    run_update closed (.task (@TaskMoves.renamed _ _ _ 1)) rfl
  have credited : Run (system crowdedSetting Bool) _ _ := run_update renamed (.task .creditBytes) rfl
  exact ⟨_, run_update credited (.task .creditEntry) rfl⟩

theorem reachable_evicting : Reachable (system crowdedSetting Bool) (evictingState older uri) := by
  obtain ⟨trace, credited⟩ := reachable_credited foreign
  have isOlder : (creditedCache older (cacheFileName uri)).files.lookup older = some ⟨[1], 0⟩ :=
    (AList.lookup_insert_ne foreign.symm).trans (AList.lookup_insert _)
  have locked : Run (system crowdedSetting Bool) _ _ := run_update credited (.task (.lockEviction (by decide))) rfl
  have decided : Run (system crowdedSetting Bool) _ _ :=
    run_update locked (.task (.sweep (@SweepMoves.overBudget _ _ 2 (by decide)))) rfl
  have older : Run (system crowdedSetting Bool) _ _ :=
    run_update decided (.task (.sweep (@SweepMoves.visit _ _ [] ⟨older, 0, 1⟩ List.not_mem_nil)))
      (@effect_visit_of Bool _ true _ ⟨older, 0, 1⟩ ⟨[1], 0⟩ isOlder rfl)
  have own : Run (system crowdedSetting Bool) _ _ :=
    run_update older (.task (.sweep (@SweepMoves.visit _ _ _ ⟨cacheFileName uri, 1, 1⟩ (by simpa using foreign))))
      (@effect_visit_of Bool _ true _ ⟨cacheFileName uri, 1, 1⟩ ⟨[7], 1⟩ (AList.lookup_insert _) rfl)
  have scanned : Run (system crowdedSetting Bool) _ _ :=
    run_update own (.task (.sweep (.scanOver (by decide : ¬ 2 ≤ 1) (List.Perm.refl _) (by simp)))) rfl
  have chosen : Run (system crowdedSetting Bool) _ _ :=
    run_update scanned (.task (.sweep (.choose (by decide : ¬ 2 ≤ 1) foreign.symm))) rfl
  have requesting : Run (system crowdedSetting Bool) _ _ := run_update chosen (.task (.sweep .lockKeys)) rfl
  have trying : Run (system crowdedSetting Bool) _ _ := run_update requesting (.task (.sweep .unlockKeys)) rfl
  have removing : Run (system crowdedSetting Bool) _ _ :=
    run_update trying (.task (.sweep .owned)) (effect_lockKey (if_neg foreign.symm))
  have other : Run (system crowdedSetting Bool) _ _ := run_focus removing false rfl
  have calling : Run (system crowdedSetting Bool) _ _ :=
    run_update other (@Moves.call crowdedSetting uri trivial) rfl
  have registering : Run (system crowdedSetting Bool) _ _ := run_update calling .lockKeys rfl
  have waiting : Run (system crowdedSetting Bool) _ _ := run_update registering .unlockKeys rfl
  exact ⟨_, run_phases waiting (fun thread => by cases thread <;> rfl)⟩

theorem reachable_evicted : Reachable (system crowdedSetting Bool) (evictedState older uri) := by
  obtain ⟨trace, evicting⟩ := reachable_evicting foreign
  have removing : Run (system crowdedSetting Bool) _ _ := run_focus evicting true rfl
  have isOlder : (evictingCache older (cacheFileName uri)).files.lookup older = some ⟨[1], 0⟩ :=
    (AList.lookup_insert_ne foreign.symm).trans (AList.lookup_insert _)
  have removed : Run (system crowdedSetting Bool) _ _ :=
    run_update removing (.task (.sweep .removed)) (@effect_remove Bool _ true _ _ _ isOlder)
  exact ⟨_, run_phases removed (fun thread => by cases thread <;> rfl)⟩

theorem reachable_relieved : Reachable (system crowdedSetting Bool) (relievedState older uri) := by
  obtain ⟨trace, evicted⟩ := reachable_evicted foreign
  have debiting : Run (system crowdedSetting Bool) _ _ := run_focus evicted true rfl
  have bytes : Run (system crowdedSetting Bool) _ _ := run_update debiting (.task (.sweep .debitBytes)) rfl
  have entries : Run (system crowdedSetting Bool) _ _ := run_update bytes (.task (.sweep .debitEntry)) rfl
  have counted : Run (system crowdedSetting Bool) _ _ := run_update entries (.task (.sweep .count)) rfl
  have released : Run (system crowdedSetting Bool) _ _ :=
    run_update counted (.task (.sweep .release)) (effect_unlockKey (if_pos rfl))
  have met : Run (system crowdedSetting Bool) _ _ :=
    run_update released (.task (.sweep (.budgetMet (by decide : 1 ≤ 1)))) rfl
  have unlocked : Run (system crowdedSetting Bool) _ _ := run_update met (.task .swept) rfl
  have untouched : Run (system crowdedSetting Bool) _ _ := run_update unlocked (.task .touchFailed) rfl
  have isOwn : (evictedCache older (cacheFileName uri)).files.lookup (cacheFileName uri) = some ⟨[7], 1⟩ :=
    (AList.lookup_erase_ne foreign).trans (AList.lookup_insert _)
  have opened : Run (system crowdedSetting Bool) _ _ :=
    run_update untouched (.task .opened) (@effect_openFile_of Bool _ true _ _ _ isOwn)
  have ownLock : (if cacheFileName uri = older then none
      else (evictedCache older (cacheFileName uri)).keyLocks (cacheFileName uri)) = some (true, 1) := by
    rw [if_neg foreign]
    exact (if_neg foreign).trans (if_pos rfl)
  have finished : Run (system crowdedSetting Bool) _ _ := run_update opened .finish (effect_unlockKey ownLock)
  exact ⟨_, run_phases finished (fun thread => by cases thread <;> rfl)⟩

end Crowded

end KernelLake.NvmeObjectCache
