import KernelLake.NvmeObjectCache

/-!
The locks of the object cache.

Every lock is held by exactly the threads that are where it protects them, and never twice: a sweep asks
for the locks of other keys only. A thread that waits for the lock of a key holds none; one that waits
for the eviction mutex holds its own key's lock; and the mutex of the lock table is the last one taken.
So a thread that cannot act waits for one further along, and some thread can always act.
-/

namespace KernelLake.NvmeCacheLocks

open KernelLake.NvmeObjectCache KernelLake.Library.Interleavings

/-! ## Where locks are held -/

def holdsKeys : Phase → Prop
  | .registering _ => True
  | .serving _ (.sweeping (.registering _)) => True
  | _ => False

def holdsEviction : Phase → Prop
  | .serving _ (.sweeping _) => True
  | _ => False

/-- Where a sweep holds the lock of the entry it is at. -/
def sweepHolds : Sweep → String → Prop
  | .removing candidate, key => candidate.entry.key = key
  | .debitingBytes candidate, key => candidate.entry.key = key
  | .debitingEntry candidate, key => candidate.entry.key = key
  | .counting candidate, key => candidate.entry.key = key
  | .releasing candidate, key => candidate.entry.key = key
  | _, _ => False

def holdsKey : Phase → String → Prop
  | .serving uri (.sweeping sweep), key => cacheFileName uri = key ∨ sweepHolds sweep key
  | .serving uri _, key => cacheFileName uri = key
  | _, _ => False

/-- A sweep is never at its own call's entry. -/
def SweepForeign (protectedKey : String) : Sweep → Prop
  | .requesting candidate => candidate.entry.key ≠ protectedKey
  | .registering candidate => candidate.entry.key ≠ protectedKey
  | .trying candidate => candidate.entry.key ≠ protectedKey
  | .removing candidate => candidate.entry.key ≠ protectedKey
  | .debitingBytes candidate => candidate.entry.key ≠ protectedKey
  | .debitingEntry candidate => candidate.entry.key ≠ protectedKey
  | .counting candidate => candidate.entry.key ≠ protectedKey
  | .releasing candidate => candidate.entry.key ≠ protectedKey
  | _ => True

def Foreign : Phase → Prop
  | .serving uri (.sweeping sweep) => SweepForeign (cacheFileName uri) sweep
  | _ => True

/-- Each lock is held by exactly the threads that are where it protects them. -/
structure Locked {Thread : Type} (state : State Thread) : Prop where
  keys : Guards state.shared.keysMutex fun thread => holdsKeys (state.phases thread)
  eviction : Guards state.shared.evictionMutex fun thread => holdsEviction (state.phases thread)
  key : ∀ key, Guards (state.shared.keyLocks key) fun thread => holdsKey (state.phases thread) key

theorem seeded_locked {Thread : Type} {setting : Setting} {state : State Thread}
    (seeded : Seeded setting state.shared)
    (idle : ∀ thread, state.phases thread = .idle) : Locked state where
  keys := by
    rw [seeded.keysMutex]
    exact guards_free (fun thread held => by rw [idle] at held; exact held)
  eviction := by
    rw [seeded.evictionMutex]
    exact guards_free (fun thread held => by rw [idle] at held; exact held)
  key key := by
    rw [seeded.keyLocks]
    exact guards_free (fun thread held => by rw [idle] at held; exact held)

/-! ## What actions do with locks -/

def keysUse : Action → Use
  | .lockKeys => .take
  | .unlockKeys => .leave
  | _ => .keep

def evictionUse : Action → Use
  | .lockEviction => .take
  | .unlockEviction => .leave
  | _ => .keep

def keyUse (key : String) : Action → Use
  | .lockKey other => if key = other then .take else .keep
  | .tryLockKey other true => if key = other then .take else .keep
  | .unlockKey other => if key = other then .leave else .keep
  | _ => .keep

section Locks

variable {Thread : Type} {setting : Setting}

/-- An action that only looks at the data leaves them as they are. -/
theorem eq_of_guarded {shared shared' : Shared Thread} {possible : Prop} [Decidable possible]
    (acted : (if possible then some shared else none) = some shared') : shared' = shared := by
  split at acted
  · exact (Option.some.inj acted).symm
  · cases acted

theorem changeKeyLock_eq {shared shared' : Shared Thread} {key : String}
    {change : Lock Thread → Option (Lock Thread)} (changed : shared.changeKeyLock key change = some shared') :
    ∃ lock, change (shared.keyLocks key) = some lock ∧
      shared' =
        { shared with keyLocks := fun other => if other = key then lock else shared.keyLocks other } := by
  obtain ⟨lock, isLock, same⟩ := Option.map_eq_some_iff.mp changed
  exact ⟨lock, isLock, same.symm⟩

theorem moves_from {state : State Thread} {thread : Thread} {phase phase' : Phase} {action : Action}
    (isPhase : state.phases thread = phase) (moves : Moves setting phase action phase') :
    Moves setting (state.phases thread) action phase' := by
  rw [isPhase]
  exact moves

variable [DecidableEq Thread]

/-- What is done with the lock of a key, and that the others are as before. -/
theorem changeKeyLock_apply {shared shared' : Shared Thread} {thread : Thread} {key : String} {use : Use}
    (changed : shared.changeKeyLock key (fun lock => use.apply true thread lock) = some shared')
    (other : String) :
    (if other = key then use else .keep).apply true thread (shared.keyLocks other) =
      some (shared'.keyLocks other) := by
  obtain ⟨lock, isLock, rfl⟩ := changeKeyLock_eq changed
  by_cases same : other = key
  · simpa [same] using isLock
  · simp [same, Use.apply]

/-- What an action does with each lock. -/
structure LocksUsed (thread : Thread) (action : Action) (shared shared' : Shared Thread) : Prop where
  keys : (keysUse action).apply false thread shared.keysMutex = some shared'.keysMutex
  eviction : (evictionUse action).apply false thread shared.evictionMutex = some shared'.evictionMutex
  key : ∀ key, (keyUse key action).apply true thread (shared.keyLocks key) = some (shared'.keyLocks key)

theorem effect_locks {thread : Thread} {action : Action} {shared shared' : Shared Thread}
    (acted : effect thread action shared = some shared') : LocksUsed thread action shared shared' := by
  cases action with
  | lockKeys | unlockKeys =>
    obtain ⟨lock, changed, rfl⟩ := Option.map_eq_some_iff.mp acted
    exact ⟨changed, rfl, fun _ => rfl⟩
  | lockEviction | unlockEviction =>
    obtain ⟨lock, changed, rfl⟩ := Option.map_eq_some_iff.mp acted
    exact ⟨rfl, changed, fun _ => rfl⟩
  | lockKey key =>
    have others := @changeKeyLock_apply _ _ shared shared' thread key .take acted
    obtain ⟨lock, _, rfl⟩ := changeKeyLock_eq acted
    exact ⟨rfl, rfl, others⟩
  | unlockKey key =>
    have others := @changeKeyLock_apply _ _ shared shared' thread key .leave acted
    obtain ⟨lock, _, rfl⟩ := changeKeyLock_eq acted
    exact ⟨rfl, rfl, others⟩
  | tryLockKey key owned =>
    cases owned with
    | true =>
      have others := @changeKeyLock_apply _ _ shared shared' thread key .take acted
      obtain ⟨lock, _, rfl⟩ := changeKeyLock_eq acted
      exact ⟨rfl, rfl, others⟩
    | false =>
      obtain rfl := Option.some.inj acted
      exact ⟨rfl, rfl, fun _ => rfl⟩
  | remove key removed =>
    cases removed with
    | true =>
      obtain ⟨file, _, rfl⟩ := Option.map_eq_some_iff.mp acted
      exact ⟨rfl, rfl, fun _ => rfl⟩
    | false =>
      obtain rfl := Option.some.inj acted
      exact ⟨rfl, rfl, fun _ => rfl⟩
  | touch =>
    obtain ⟨file, _, rfl⟩ := Option.map_eq_some_iff.mp acted
    exact ⟨rfl, rfl, fun _ => rfl⟩
  | rename =>
    simp only [effect] at acted
    split at acted
    · obtain rfl := Option.some.inj acted
      exact ⟨rfl, rfl, fun _ => rfl⟩
    · cases acted
  | stat | openFile | visit | loadBytes =>
    obtain rfl := eq_of_guarded acted
    exact ⟨rfl, rfl, fun _ => rfl⟩
  | addBytes | addEntry | subBytes | subEntry | countHit | countMiss | countEviction | internal =>
    obtain rfl := Option.some.inj acted
    exact ⟨rfl, rfl, fun _ => rfl⟩

/-! ## What moves do with locks -/

theorem sweepMoves_foreign {maxSizeBytes : UInt64} {protectedKey : String} {sweep sweep' : Sweep}
    {action : Action} (moves : SweepMoves maxSizeBytes protectedKey sweep action sweep')
    (foreign : SweepForeign protectedKey sweep) : SweepForeign protectedKey sweep' := by
  cases moves with
  | choose exceeded isForeign => exact isForeign
  | _ => first | exact foreign | trivial

theorem moves_foreign {phase phase' : Phase} {action : Action} (moves : Moves setting phase action phase')
    (foreign : Foreign phase) : Foreign phase' := by
  cases moves with
  | task taskMoves =>
    cases taskMoves with
    | sweep sweepMoves => exact sweepMoves_foreign sweepMoves foreign
    | _ => trivial
  | _ => trivial

theorem moves_keys {phase phase' : Phase} {action : Action} (moves : Moves setting phase action phase') :
    (keysUse action).Describes (holdsKeys phase) (holdsKeys phase') := by
  cases moves with
  | task taskMoves =>
    cases taskMoves with
    | sweep sweepMoves => cases sweepMoves <;> simp [keysUse, Use.Describes, holdsKeys]
    | _ => simp [keysUse, Use.Describes, holdsKeys]
  | _ => simp [keysUse, Use.Describes, holdsKeys]

theorem moves_eviction {phase phase' : Phase} {action : Action} (moves : Moves setting phase action phase') :
    (evictionUse action).Describes (holdsEviction phase) (holdsEviction phase') := by
  cases moves with
  | task taskMoves =>
    cases taskMoves with
    | sweep sweepMoves => cases sweepMoves <;> simp [evictionUse, Use.Describes, holdsEviction]
    | _ => simp [evictionUse, Use.Describes, holdsEviction]
  | _ => simp [evictionUse, Use.Describes, holdsEviction]

/-- A move takes and leaves locks of keys as its action does. -/
theorem moves_key {phase phase' : Phase} {action : Action} (moves : Moves setting phase action phase')
    (foreign : Foreign phase) (key : String) :
    (keyUse key action).Describes (holdsKey phase key) (holdsKey phase' key) := by
  cases moves with
  | lockKey | finish =>
    simp only [keyUse]
    split
    · rename_i same
      simp [Use.Describes, holdsKey, same]
    · rename_i other
      simp [Use.Describes, holdsKey, Ne.symm other]
  | task taskMoves =>
    cases taskMoves with
    | sweep sweepMoves =>
      cases sweepMoves with
      | owned =>
        simp only [keyUse]
        split
        · rename_i same
          simp [Use.Describes, holdsKey, sweepHolds, same, Ne.symm foreign]
        · rename_i other
          simp [Use.Describes, holdsKey, sweepHolds, Ne.symm other]
      | release =>
        simp only [keyUse]
        split
        · rename_i same
          simp [Use.Describes, holdsKey, sweepHolds, same, Ne.symm foreign]
        · rename_i other
          simp [Use.Describes, holdsKey, sweepHolds, Ne.symm other]
      | _ => simp [keyUse, Use.Describes, holdsKey, sweepHolds]
    | _ => simp [keyUse, Use.Describes, holdsKey, sweepHolds]
  | _ => simp [keyUse, Use.Describes, holdsKey]

/-! ## Every run -/

theorem reachable_foreign {state : State Thread} (reachable : Reachable (system setting Thread) state)
    (thread : Thread) : Foreign (state.phases thread) :=
  phase_invariant reachable trivial (fun _ _ _ foreign moves => moves_foreign moves foreign) thread

theorem step_locked {state state' : State Thread} {thread : Thread} {action : Action}
    (locked : Locked state) (foreign : Foreign (state.phases thread))
    (step : Step (program setting Thread) state thread action state') : Locked state' := by
  have used := effect_locks step.acted
  refine ⟨locked.keys.use used.keys (moves_keys step.moved) (fun other isOther => ?_),
    locked.eviction.use used.eviction (moves_eviction step.moved) (fun other isOther => ?_),
    fun key =>
      (locked.key key).use (used.key key) (moves_key step.moved foreign key) (fun other isOther => ?_)⟩
  all_goals rw [step.others other isOther]

theorem reachable_locked {state : State Thread} (reachable : Reachable (system setting Thread) state) :
    Locked state := by
  obtain ⟨trace, run⟩ := reachable
  refine @Run.invariant _ _ _ (fun _ state => Locked state) trace state run
    (fun state initial => seeded_locked initial.1 initial.2)
    (fun trace state label state' run locked step => ?_)
  exact step_locked locked (reachable_foreign ⟨trace, run⟩ label.1) step

/-! ## Deadlock -/

/-- How far along the order of locks a phase is. -/
def rank : Phase → Nat
  | .registering _ => 3
  | .serving _ (.sweeping (.registering _)) => 3
  | .serving _ (.sweeping _) => 2
  | .serving _ _ => 1
  | _ => 0

/-- A thread that can act now. -/
def Ready (setting : Setting) (state : State Thread) (thread : Thread) : Prop :=
  ∃ action state', Step (program setting Thread) state thread action state'

theorem ready_of_move {state : State Thread} {thread : Thread} {action : Action} {phase : Phase}
    {shared : Shared Thread} (moved : Moves setting (state.phases thread) action phase)
    (acted : effect thread action state.shared = some shared) : Ready setting state thread :=
  ⟨action, _, @step_of_move _ _ _ _ _ (program setting Thread) state thread action phase shared moved acted⟩

/-- What holds a lock is ahead of what waits for it. -/
theorem holdsKeys_rank {phase : Phase} (held : holdsKeys phase) : phase ≠ .idle ∧ rank phase = 3 := by
  unfold holdsKeys at held
  split at held
  · exact ⟨Phase.noConfusion, rfl⟩
  · exact ⟨Phase.noConfusion, rfl⟩
  · exact held.elim

theorem holdsEviction_rank {phase : Phase} (held : holdsEviction phase) : phase ≠ .idle ∧ 2 ≤ rank phase := by
  unfold holdsEviction at held
  split at held
  · rename_i uri sweep
    exact ⟨Phase.noConfusion, by cases sweep <;> simp [rank]⟩
  · exact held.elim

theorem holdsKey_rank {phase : Phase} {key : String} (held : holdsKey phase key) :
    phase ≠ .idle ∧ 1 ≤ rank phase := by
  cases phase with
  | serving uri task =>
    refine ⟨Phase.noConfusion, ?_⟩
    unfold rank
    split <;> simp_all
  | _ => exact held.elim

theorem rank_le (phase : Phase) : rank phase ≤ 3 := by
  unfold rank
  split <;> omega

/-- A thread waits only for one that is ahead of it. -/
def Waits (state : State Thread) (thread : Thread) : Prop :=
  ∃ holder, state.phases holder ≠ .idle ∧ rank (state.phases thread) < rank (state.phases holder)

section Waiting

variable {state : State Thread} (locked : Locked state) {thread : Thread} {phase : Phase}
include locked

theorem ready_or_waits_keys (moved : Moves setting (state.phases thread) .lockKeys phase)
    (behind : rank (state.phases thread) < 3) : Ready setting state thread ∨ Waits state thread := by
  rcases locked.keys.acquire_or thread with ⟨lock, taken⟩ | ⟨holder, held⟩
  · exact .inl (ready_of_move moved (Option.map_eq_some_iff.mpr ⟨lock, taken, rfl⟩))
  · obtain ⟨busy, isRank⟩ := holdsKeys_rank held
    exact .inr ⟨holder, busy, by omega⟩

theorem ready_or_waits_eviction (moved : Moves setting (state.phases thread) .lockEviction phase)
    (behind : rank (state.phases thread) < 2) : Ready setting state thread ∨ Waits state thread := by
  rcases locked.eviction.acquire_or thread with ⟨lock, taken⟩ | ⟨holder, held⟩
  · exact .inl (ready_of_move moved (Option.map_eq_some_iff.mpr ⟨lock, taken, rfl⟩))
  · obtain ⟨busy, isRank⟩ := holdsEviction_rank held
    exact .inr ⟨holder, busy, by omega⟩

theorem ready_or_waits_key {key : String} (moved : Moves setting (state.phases thread) (.lockKey key) phase)
    (behind : rank (state.phases thread) < 1) : Ready setting state thread ∨ Waits state thread := by
  rcases (locked.key key).acquireAgain_or thread with ⟨lock, taken⟩ | ⟨holder, held⟩
  · exact .inl (ready_of_move moved (Option.map_eq_some_iff.mpr ⟨lock, taken, rfl⟩))
  · obtain ⟨busy, isRank⟩ := holdsKey_rank held
    exact .inr ⟨holder, busy, by omega⟩

theorem ready_unlockKeys (moved : Moves setting (state.phases thread) .unlockKeys phase)
    (held : holdsKeys (state.phases thread)) : Ready setting state thread := by
  obtain ⟨lock, released⟩ := locked.keys.release_exists held
  exact ready_of_move moved (Option.map_eq_some_iff.mpr ⟨lock, released, rfl⟩)

theorem ready_unlockEviction (moved : Moves setting (state.phases thread) .unlockEviction phase)
    (held : holdsEviction (state.phases thread)) : Ready setting state thread := by
  obtain ⟨lock, released⟩ := locked.eviction.release_exists held
  exact ready_of_move moved (Option.map_eq_some_iff.mpr ⟨lock, released, rfl⟩)

theorem ready_unlockKey {key : String} (moved : Moves setting (state.phases thread) (.unlockKey key) phase)
    (held : holdsKey (state.phases thread) key) : Ready setting state thread := by
  obtain ⟨lock, released⟩ := (locked.key key).release_exists held
  exact ready_of_move moved (Option.map_eq_some_iff.mpr ⟨lock, released, rfl⟩)

theorem sweep_ready_or_waits {uri : String} {sweep : Sweep}
    (isPhase : state.phases thread = .serving uri (.sweeping sweep)) :
    Ready setting state thread ∨ Waits state thread := by
  have moved {action : Action} {sweep' : Sweep}
      (moves : SweepMoves setting.maxSizeBytes (cacheFileName uri) sweep action sweep') :
      Moves setting (state.phases thread) action (.serving uri (.sweeping sweep')) :=
    moves_from isPhase (.task (.sweep moves))
  have isRank : rank (state.phases thread) = rank (.serving uri (.sweeping sweep)) := congrArg rank isPhase
  cases sweep with
  | deciding =>
    by_cases within : state.shared.currentBytes ≤ setting.maxSizeBytes
    · exact .inl (ready_of_move (moved (.withinBudget within)) (if_pos rfl))
    · exact .inl (ready_of_move (moved (.overBudget within)) (if_pos rfl))
  | scanning entries => exact .inl (ready_of_move (moved .scanRaised) rfl)
  | choosing entries total =>
    cases entries with
    | nil => exact .inl (ready_of_move (moved .exhausted) rfl)
    | cons entry rest =>
      by_cases within : total ≤ setting.maxSizeBytes.toNat
      · exact .inl (ready_of_move (moved (.budgetMet within)) rfl)
      · by_cases own : entry.key = cacheFileName uri
        · exact .inl (ready_of_move (moved (.skipProtected within own)) rfl)
        · exact .inl (ready_of_move (moved (.choose within own)) rfl)
  | requesting candidate =>
    exact ready_or_waits_keys locked (moved .lockKeys) (by rw [isRank]; exact Nat.lt_succ_self 2)
  | registering candidate =>
    exact .inl (ready_unlockKeys locked (moved .unlockKeys) (by rw [isPhase]; trivial))
  | trying candidate => exact .inl (ready_of_move (moved .busy) rfl)
  | removing candidate => exact .inl (ready_of_move (moved .notRemoved) rfl)
  | debitingBytes candidate => exact .inl (ready_of_move (moved .debitBytes) rfl)
  | debitingEntry candidate => exact .inl (ready_of_move (moved .debitEntry) rfl)
  | counting candidate => exact .inl (ready_of_move (moved .count) rfl)
  | releasing candidate =>
    exact .inl (ready_unlockKey locked (moved .release) (by rw [isPhase]; exact .inr rfl))
  | leaving succeeded =>
    have held : holdsEviction (state.phases thread) := by rw [isPhase]; trivial
    cases succeeded with
    | true => exact .inl (ready_unlockEviction locked (moves_from isPhase (.task .swept)) held)
    | false => exact .inl (ready_unlockEviction locked (moves_from isPhase (.task .sweepRaised)) held)

theorem task_ready_or_waits {uri : String} {task : NvmeObjectCache.Task}
    (isPhase : state.phases thread = .serving uri task) :
    Ready setting state thread ∨ Waits state thread := by
  have moved {action : Action} {task' : NvmeObjectCache.Task}
      (moves : TaskMoves setting uri task action task') :
      Moves setting (state.phases thread) action (.serving uri task') :=
    moves_from isPhase (.task moves)
  have isRank : rank (state.phases thread) = rank (.serving uri task) := congrArg rank isPhase
  cases task with
  | checking => exact .inl (ready_of_move (moved .stat) (if_pos rfl))
  | counting present =>
    cases present with
    | true => exact .inl (ready_of_move (moved .hit) rfl)
    | false => exact .inl (ready_of_move (moved .miss) rfl)
  | fetching => exact .inl (ready_of_move (moved .fetchFailed) rfl)
  | creating remote => exact .inl (ready_of_move (moved .created) rfl)
  | copying remote offset =>
    by_cases more : offset < copyTotal remote
    · exact .inl (ready_of_move (moved (.copyFailed more)) rfl)
    · exact .inl (ready_of_move (moved (.copied more)) rfl)
  | closing contents => exact .inl (ready_of_move (moved .closed) rfl)
  | publishing contents => exact .inl (ready_of_move (moved .renameFailed) rfl)
  | creditingBytes size => exact .inl (ready_of_move (moved .creditBytes) rfl)
  | creditingEntry => exact .inl (ready_of_move (moved .creditEntry) rfl)
  | budgeting =>
    by_cases noBudget : setting.maxSizeBytes = 0
    · exact .inl (ready_of_move (moved (.unbounded noBudget)) rfl)
    · exact ready_or_waits_eviction locked (moved (.lockEviction noBudget))
        (by rw [isRank]; exact Nat.lt_succ_self 1)
  | sweeping sweep => exact sweep_ready_or_waits locked isPhase
  | touching => exact .inl (ready_of_move (moved .touchFailed) rfl)
  | opening => exact .inl (ready_of_move (moved .openFailed) rfl)
  | releasing result =>
    exact .inl (ready_unlockKey locked (moves_from isPhase .finish) (by rw [isPhase]; rfl))

theorem ready_or_waits (busy : state.phases thread ≠ .idle) :
    Ready setting state thread ∨ Waits state thread := by
  cases isPhase : state.phases thread with
  | idle => exact absurd isPhase busy
  | requesting uri =>
    exact ready_or_waits_keys locked (moves_from isPhase .lockKeys) (by rw [isPhase]; exact Nat.zero_lt_succ 2)
  | registering uri =>
    exact .inl (ready_unlockKeys locked (moves_from isPhase .unlockKeys) (by rw [isPhase]; trivial))
  | waiting uri =>
    exact ready_or_waits_key locked (moves_from isPhase .lockKey) (by rw [isPhase]; exact Nat.zero_lt_succ 0)
  | serving uri task => exact task_ready_or_waits locked isPhase

end Waiting

/-- In every reachable state with an unfinished call some unfinished call can go on. -/
theorem deadlock_free {state : State Thread} (reachable : Reachable (system setting Thread) state)
    {thread : Thread} (busy : state.phases thread ≠ .idle) :
    ∃ other action state', state.phases other ≠ .idle ∧
      (system setting Thread).step state (other, action) state' := by
  have locked := reachable_locked reachable
  obtain ⟨other, otherBusy, action, state', step⟩ :=
    @exists_ready Thread (fun thread => state.phases thread ≠ .idle) (Ready setting state)
      (fun thread => rank (state.phases thread)) 3 (fun thread => rank_le _)
      (fun thread threadBusy => ready_or_waits locked threadBusy) thread busy
  exact ⟨other, action, state', otherBusy, step⟩

end Locks

/-- A call waits for the lock of its object, which another call holds while it evicts an older file. -/
theorem deadlock_free_evicting :
    (evictingState "older.cache" "s3://lake/orders").shared.keyLocks (cacheFileName "s3://lake/orders") =
        some (true, 1) ∧
      ∃ other action state',
        (evictingState "older.cache" "s3://lake/orders").phases other ≠ .idle ∧
          (system crowdedSetting Bool).step (evictingState "older.cache" "s3://lake/orders") (other, action) state' :=
  ⟨by decide +kernel, @deadlock_free Bool crowdedSetting _ _ (reachable_evicting (by decide +kernel)) false
    Phase.noConfusion⟩

end KernelLake.NvmeCacheLocks
