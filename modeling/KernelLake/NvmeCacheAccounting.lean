import KernelLake.NvmeCacheFiles

/-!
The counters of the object cache.

Two ledgers are kept alike, one of bytes and one of entries. A counter is the sum over the files that are
credited to it and what the sweeping thread has removed and still owes. A file is not credited yet while
its call is between the rename and the addition; the lock of its key keeps every sweep away from it until
then, so that nothing is subtracted that was not added before.
-/

namespace KernelLake.NvmeCacheAccounting

open KernelLake.NvmeObjectCache KernelLake.NvmeCacheLocks KernelLake.NvmeCacheFiles
open KernelLake.Library.Interleavings KernelLake.Library.Registries

/-! ## Ledgers -/

/-- What is counted. -/
inductive Ledger
  | bytes
  | entries

/-- What a file of a size counts for. -/
def Ledger.amount (ledger : Ledger) (size : Nat) : Nat :=
  match ledger with
  | .bytes => size
  | .entries => 1

/-- What a file adds to a ledger. -/
def Ledger.weigh (ledger : Ledger) (_ : String) (file : CachedFile) : Nat :=
  ledger.amount file.contents.length

def Ledger.counter {Thread : Type} (ledger : Ledger) (shared : Shared Thread) : UInt64 :=
  match ledger with
  | .bytes => shared.currentBytes
  | .entries => shared.currentEntries

/-- Between a rename and the addition to the counter. -/
def Ledger.pending (ledger : Ledger) : NvmeObjectCache.Task → Prop
  | .creditingBytes _ => True
  | .creditingEntry => ledger = .entries
  | _ => False

/-- What a sweep has removed and not subtracted yet. -/
def Ledger.owed (ledger : Ledger) : Sweep → Nat
  | .debitingBytes candidate => ledger.amount candidate.entry.size
  | .debitingEntry _ =>
    match ledger with
    | .bytes => 0
    | .entries => 1
  | _ => 0

def Ledger.credit (ledger : Ledger) (action : Action) : Nat :=
  match ledger, action with
  | .bytes, .addBytes size => size
  | .entries, .addEntry => 1
  | _, _ => 0

def Ledger.debit (ledger : Ledger) (action : Action) : Nat :=
  match ledger, action with
  | .bytes, .subBytes size => size
  | .entries, .subEntry => 1
  | _, _ => 0

/-- A thread is about to add the file of a key. -/
def pendingAt (ledger : Ledger) : Phase → String → Prop
  | .serving uri task, key => cacheFileName uri = key ∧ ledger.pending task
  | _, _ => False

def owedAt (ledger : Ledger) : Phase → Nat
  | .serving _ (.sweeping sweep) => ledger.owed sweep
  | _ => 0

/-- What a file that is credited adds to a ledger. -/
noncomputable def creditedWeight (ledger : Ledger) (uncredited : String → Prop) (key : String)
    (file : CachedFile) : Nat :=
  open Classical in if uncredited key then 0 else ledger.weigh key file

/-- The sum over the files of a directory that are credited. -/
noncomputable def credited (ledger : Ledger) (uncredited : String → Prop) (files : Directory) : Nat :=
  total (creditedWeight ledger uncredited) files

section Credited

variable {ledger : Ledger} {uncredited uncredited' : String → Prop} {files : Directory} {key : String}
  {file : CachedFile}

theorem creditedWeight_pending (pending : uncredited key) : creditedWeight ledger uncredited key file = 0 :=
  if_pos pending

theorem creditedWeight_done (done : ¬ uncredited key) :
    creditedWeight ledger uncredited key file = ledger.weigh key file :=
  if_neg done

theorem creditedWeight_congr (same : uncredited' key ↔ uncredited key) :
    creditedWeight ledger uncredited' key file = creditedWeight ledger uncredited key file := by
  by_cases pending : uncredited key
  · rw [creditedWeight_pending pending, creditedWeight_pending (same.mpr pending)]
  · rw [creditedWeight_done pending, creditedWeight_done (fun pending' => pending (same.mp pending'))]

theorem credited_congr (same : ∀ key, uncredited' key ↔ uncredited key) :
    credited ledger uncredited' files = credited ledger uncredited files :=
  total_congr (fun key _ _ => creditedWeight_congr (same key))

theorem credited_le : credited ledger uncredited files ≤ total ledger.weigh files := by
  refine total_le_total (fun key file => ?_)
  by_cases pending : uncredited key
  · rw [creditedWeight_pending pending]
    exact Nat.zero_le _
  · rw [creditedWeight_done pending]

/-- A published file is not credited at once. -/
theorem credited_publish (absent : files.lookup key = none) (pending : uncredited' key)
    (others : ∀ other, other ≠ key → (uncredited' other ↔ uncredited other)) :
    credited ledger uncredited' (files.insert key file) = credited ledger uncredited files := by
  unfold credited
  rw [total_insert_absent absent, creditedWeight_pending pending, Nat.zero_add]
  refine total_congr (fun other file isFile => creditedWeight_congr (others other (fun same => ?_)))
  rw [same, absent] at isFile
  cases isFile

theorem credited_credit (present : files.lookup key = some file) (pending : uncredited key)
    (done : ¬ uncredited' key) (others : ∀ other, other ≠ key → (uncredited' other ↔ uncredited other)) :
    credited ledger uncredited' files = ledger.weigh key file + credited ledger uncredited files := by
  unfold credited
  rw [total_erase present, total_erase present, creditedWeight_done done, creditedWeight_pending pending,
    Nat.zero_add]
  congr 1
  refine total_congr (fun other file isFile => creditedWeight_congr (others other (fun same => ?_)))
  rw [same, AList.lookup_erase] at isFile
  cases isFile

theorem credited_remove (present : files.lookup key = some file) (done : ¬ uncredited key)
    (same : ∀ other, uncredited' other ↔ uncredited other) :
    credited ledger uncredited files =
      ledger.weigh key file + credited ledger uncredited' (files.erase key) := by
  rw [credited_congr same]
  unfold credited
  rw [total_erase present, creditedWeight_done done]

theorem credited_touch (present : files.lookup key = some file) (mtime : Int) :
    credited ledger uncredited (files.insert key { file with mtime }) = credited ledger uncredited files := by
  unfold credited
  rw [total_insert, total_erase present]
  rfl

end Credited

/-! ## Conservation -/

section Effects

variable {Thread : Type} [DecidableEq Thread] {ledger : Ledger} {thread : Thread}
  {shared shared' : Shared Thread} {action : Action}

/-- Whether an action changes the directory. -/
def changesFiles : Action → Bool
  | .rename .. => true
  | .remove _ removed => removed
  | .touch .. => true
  | _ => false

/-- The rest of the shared data, apart from the directory where it changes. -/
theorem effect_frame (acted : effect thread action shared = some shared') :
    (changesFiles action = false → shared'.files = shared.files) ∧
      ledger.counter shared' = ledger.counter shared + UInt64.ofNat (ledger.credit action) -
        UInt64.ofNat (ledger.debit action) := by
  cases action with
  | lockKeys | unlockKeys | lockEviction | unlockEviction =>
    obtain ⟨_, _, rfl⟩ := Option.map_eq_some_iff.mp acted
    exact ⟨fun _ => rfl, by cases ledger <;> simp [Ledger.counter, Ledger.credit, Ledger.debit]⟩
  | lockKey | unlockKey =>
    obtain ⟨_, _, rfl⟩ := changeKeyLock_eq acted
    exact ⟨fun _ => rfl, by cases ledger <;> simp [Ledger.counter, Ledger.credit, Ledger.debit]⟩
  | tryLockKey key owned =>
    cases owned with
    | true =>
      obtain ⟨_, _, rfl⟩ := changeKeyLock_eq acted
      exact ⟨fun _ => rfl, by cases ledger <;> simp [Ledger.counter, Ledger.credit, Ledger.debit]⟩
    | false =>
      obtain rfl := Option.some.inj acted
      exact ⟨fun _ => rfl, by cases ledger <;> simp [Ledger.counter, Ledger.credit, Ledger.debit]⟩
  | remove key removed =>
    cases removed with
    | true =>
      obtain ⟨_, _, rfl⟩ := Option.map_eq_some_iff.mp acted
      exact ⟨fun unchanged => (by cases unchanged),
        by cases ledger <;> simp [Ledger.counter, Ledger.credit, Ledger.debit]⟩
    | false =>
      obtain rfl := Option.some.inj acted
      exact ⟨fun _ => rfl, by cases ledger <;> simp [Ledger.counter, Ledger.credit, Ledger.debit]⟩
  | rename =>
    simp only [effect] at acted
    split at acted
    · obtain rfl := Option.some.inj acted
      exact ⟨fun unchanged => (by cases unchanged),
        by cases ledger <;> simp [Ledger.counter, Ledger.credit, Ledger.debit]⟩
    · cases acted
  | touch =>
    obtain ⟨_, _, rfl⟩ := Option.map_eq_some_iff.mp acted
    exact ⟨fun unchanged => (by cases unchanged),
      by cases ledger <;> simp [Ledger.counter, Ledger.credit, Ledger.debit]⟩
  | stat | openFile | visit | loadBytes =>
    obtain rfl := eq_of_guarded acted
    exact ⟨fun _ => rfl, by cases ledger <;> simp [Ledger.counter, Ledger.credit, Ledger.debit]⟩
  | addBytes | addEntry | subBytes | subEntry | countHit | countMiss | countEviction | internal =>
    obtain rfl := Option.some.inj acted
    exact ⟨fun _ => rfl, by cases ledger <;> simp [Ledger.counter, Ledger.credit, Ledger.debit]⟩

end Effects

/-- What is true of the uncredited keys before and after a step, where one thread changes its phase. -/
structure Follows (ledger : Ledger) (phase phase' : Phase) (uncredited uncredited' : String → Prop) :
    Prop where
  pending : ∀ key, pendingAt ledger phase key → uncredited key
  pending' : ∀ key, pendingAt ledger phase' key → uncredited' key
  done : ∀ key, holdsKey phase key → ¬ pendingAt ledger phase key → ¬ uncredited key
  done' : ∀ key, holdsKey phase' key → ¬ pendingAt ledger phase' key → ¬ uncredited' key
  same : ∀ key, (pendingAt ledger phase' key ↔ pendingAt ledger phase key) →
    (uncredited' key ↔ uncredited key)

section Conservation

variable {Thread : Type} {ledger : Ledger} {shared shared' : Shared Thread} {action : Action}
  {phase phase' : Phase} {uncredited uncredited' : String → Prop}

/-- What is credited and owed, and what a step adds to and takes from the counter. -/
def Conserved (ledger : Ledger) (files files' : Directory) (action : Action) (phase phase' : Phase)
    (uncredited uncredited' : String → Prop) : Prop :=
  credited ledger uncredited' files' + owedAt ledger phase' + ledger.debit action =
    credited ledger uncredited files + owedAt ledger phase + ledger.credit action

theorem conserved_neutral (follows : Follows ledger phase phase' uncredited uncredited')
    (same : shared'.files = shared.files)
    (pending : ∀ key, pendingAt ledger phase' key ↔ pendingAt ledger phase key)
    (owed : owedAt ledger phase' = owedAt ledger phase)
    (balanced : ledger.debit action = ledger.credit action) :
    Conserved ledger shared.files shared'.files action phase phase' uncredited uncredited' := by
  unfold Conserved
  rw [same, owed, balanced, credited_congr (fun key => follows.same key (pending key))]

/-- A file is credited when its call adds it. -/
theorem conserved_credit {uri : String} {task task' : NvmeObjectCache.Task} {file : CachedFile}
    (follows : Follows ledger (.serving uri task) (.serving uri task') uncredited uncredited')
    (same : shared'.files = shared.files) (isFile : shared.files.lookup (cacheFileName uri) = some file)
    (pending : ledger.pending task) (done : ¬ ledger.pending task')
    (held : holdsKey (.serving uri task') (cacheFileName uri))
    (notOwed : owedAt ledger (.serving uri task') = owedAt ledger (.serving uri task))
    (balanced : ledger.weigh (cacheFileName uri) file + ledger.debit action = ledger.credit action) :
    Conserved ledger shared.files shared'.files action (.serving uri task) (.serving uri task')
      uncredited uncredited' := by
  have credits := @credited_credit ledger uncredited uncredited' shared.files _ file isFile
    (follows.pending _ ⟨rfl, pending⟩) (follows.done' _ held (fun isPending => done isPending.2))
    (fun other isOther => follows.same other (by simp [pendingAt, Ne.symm isOther]))
  unfold Conserved
  rw [same, notOwed, credits]
  omega

variable [DecidableEq Thread] {setting : Setting} {thread : Thread}

/-- A sweep conserves: what it removes it owes until it has subtracted it. -/
theorem sweepMoves_conserve {uri : String} {sweep sweep' : Sweep}
    (moves : SweepMoves setting.maxSizeBytes (cacheFileName uri) sweep action sweep')
    (acted : effect thread action shared = some shared')
    (asserted : Asserted (stored shared) (.serving uri (.sweeping sweep)))
    (follows : Follows ledger (.serving uri (.sweeping sweep)) (.serving uri (.sweeping sweep'))
      uncredited uncredited') :
    Conserved ledger shared.files shared'.files action (.serving uri (.sweeping sweep))
      (.serving uri (.sweeping sweep')) uncredited uncredited' := by
  have frame := (@effect_frame Thread _ ledger thread shared shared' action acted).1
  have pending (key : String) : pendingAt ledger (.serving uri (.sweeping sweep')) key ↔
      pendingAt ledger (.serving uri (.sweeping sweep)) key := by
    simp [pendingAt, Ledger.pending]
  cases moves with
  | @removed candidate =>
    obtain ⟨file, isFile, rfl⟩ := Option.map_eq_some_iff.mp acted
    have sized : file.contents.length = candidate.entry.size := by
      have isSize := asserted.2.sized candidate.entry (List.mem_cons_self ..)
      rw [stored, isFile] at isSize
      exact Option.some.inj isSize
    have removed := @credited_remove ledger uncredited uncredited' shared.files _ file isFile
      (follows.done candidate.entry.key (.inr rfl) (fun isPending => isPending.2))
      (fun key => follows.same key (pending key))
    simp only [Conserved, owedAt, Ledger.owed]
    rw [removed, Ledger.weigh, sized]
    cases ledger <;> simp only [Ledger.debit, Ledger.credit] <;> omega
  | debitBytes =>
    have same := @credited_congr ledger _ _ shared.files (fun key => follows.same key (pending key))
    simp only [Conserved, owedAt, Ledger.owed, frame rfl, same]
    cases ledger <;> rfl
  | debitEntry =>
    have same := @credited_congr ledger _ _ shared.files (fun key => follows.same key (pending key))
    simp only [Conserved, owedAt, Ledger.owed, frame rfl, same]
    cases ledger <;> rfl
  | _ =>
    exact conserved_neutral follows (frame rfl) pending rfl (by cases ledger <;> rfl)

theorem moves_conserve (moves : Moves setting phase action phase')
    (acted : effect thread action shared = some shared') (asserted : Asserted (stored shared) phase)
    (follows : Follows ledger phase phase' uncredited uncredited') :
    Conserved ledger shared.files shared'.files action phase phase' uncredited uncredited' := by
  have frame := (@effect_frame Thread _ ledger thread shared shared' action acted).1
  cases moves with
  | @task uri task task' _ taskMoves =>
    cases taskMoves with
    | sweep sweepMoves => exact sweepMoves_conserve sweepMoves acted asserted follows
    | @renamed contents mtime =>
      have absent : shared.files.lookup (cacheFileName uri) = none := Option.map_eq_none_iff.mp asserted
      simp only [effect] at acted
      split at acted
      · obtain rfl := Option.some.inj acted
        have published := @credited_publish ledger uncredited uncredited' shared.files (cacheFileName uri)
          ⟨contents, mtime⟩ absent (follows.pending' _ ⟨rfl, trivial⟩)
          (fun other isOther => follows.same other (by simp [pendingAt, Ledger.pending, Ne.symm isOther]))
        simp only [Conserved, published]
        cases ledger <;> rfl
      · cases acted
    | @creditBytes size =>
      obtain ⟨contents, isContents, sized⟩ := Option.map_eq_some_iff.mp asserted
      obtain ⟨file, isFile, rfl⟩ := Option.map_eq_some_iff.mp isContents
      cases ledger with
      | bytes =>
        exact conserved_credit follows (frame rfl) isFile trivial (fun pending => by cases pending) rfl rfl
          sized
      | entries =>
        exact conserved_neutral follows (frame rfl) (fun key => by simp [pendingAt, Ledger.pending]) rfl rfl
    | creditEntry =>
      obtain ⟨contents, isContents⟩ := Option.isSome_iff_exists.mp asserted
      obtain ⟨file, isFile, _⟩ := Option.map_eq_some_iff.mp isContents
      cases ledger with
      | bytes =>
        exact conserved_neutral follows (frame rfl) (fun key => by simp [pendingAt, Ledger.pending]) rfl rfl
      | entries => exact conserved_credit follows (frame rfl) isFile rfl (fun pending => pending) rfl rfl rfl
    | @touched mtime =>
      obtain ⟨file, isFile, rfl⟩ := Option.map_eq_some_iff.mp acted
      have same := @credited_congr ledger _ _ (shared.files.insert (cacheFileName uri) { file with mtime })
        (fun key => follows.same key (by simp [pendingAt, Ledger.pending]))
      simp only [Conserved, same, credited_touch isFile]
      cases ledger <;> rfl
    | _ =>
      exact conserved_neutral follows (frame rfl) (fun key => by simp [pendingAt, Ledger.pending]) rfl
        (by cases ledger <;> rfl)
  | _ =>
    exact conserved_neutral follows (frame rfl) (fun key => by simp [pendingAt, Ledger.pending]) rfl
      (by cases ledger <;> rfl)

end Conservation

/-! ## Every run -/

section Runs

variable {Thread : Type}

/-- Some thread is about to add the file of a key. -/
def Uncredited (ledger : Ledger) (state : State Thread) (key : String) : Prop :=
  ∃ thread, pendingAt ledger (state.phases thread) key

/-- What a counter should be: what is credited, and what the sweep owes. -/
noncomputable def balance (ledger : Ledger) (state : State Thread) : Nat :=
  credited ledger (Uncredited ledger state) state.shared.files +
    state.shared.evictionMutex.account fun thread => owedAt ledger (state.phases thread)

/-- The counters agree with the directory and the threads, and nothing is too large to count. -/
structure Balanced (state : State Thread) : Prop where
  fits : ∀ ledger : Ledger, total ledger.weigh state.shared.files < capacity
  owedFits : ∀ (ledger : Ledger) thread, owedAt ledger (state.phases thread) < capacity
  counter : ∀ ledger : Ledger, ledger.counter state.shared = UInt64.ofNat (balance ledger state)

theorem weigh_bytes (files : Directory) : total (Ledger.weigh .bytes) files = total fileSize files :=
  rfl

theorem weigh_entries (files : Directory) : total (Ledger.weigh .entries) files = files.entries.length := by
  simp [total, Ledger.weigh, Ledger.amount]

theorem pendingAt_holdsKey {ledger : Ledger} {phase : Phase} {key : String}
    (pending : pendingAt ledger phase key) : holdsKey phase key := by
  cases phase with
  | serving uri task =>
    cases task with
    | sweeping sweep => exact .inl pending.1
    | _ => exact pending.1
  | _ => exact pending.elim

/-- Where nothing is pending and nothing owed, a counter should be the total. -/
theorem balance_settled {ledger : Ledger} {state : State Thread}
    (settled : ∀ thread, (∀ key, ¬ pendingAt ledger (state.phases thread) key) ∧
      owedAt ledger (state.phases thread) = 0) :
    balance ledger state = total ledger.weigh state.shared.files := by
  have owesNothing :
      (state.shared.evictionMutex.account fun thread => owedAt ledger (state.phases thread)) = 0 := by
    refine Nat.lt_one_iff.mp (account_lt Nat.one_pos (fun thread => ?_))
    rw [(settled thread).2]
    exact Nat.one_pos
  rw [balance, owesNothing, Nat.add_zero]
  refine total_congr (fun key file _ => creditedWeight_done ?_)
  rintro ⟨thread, pending⟩
  exact (settled thread).1 key pending

theorem owedAt_unheld {ledger : Ledger} {phase : Phase} (unheld : ¬ holdsEviction phase) :
    owedAt ledger phase = 0 := by
  unfold owedAt
  split
  · exact absurd trivial unheld
  · rfl

theorem not_uncredited {ledger : Ledger} {state : State Thread} (locked : Locked state) {thread : Thread}
    {key : String} (held : holdsKey (state.phases thread) key)
    (done : ¬ pendingAt ledger (state.phases thread) key) : ¬ Uncredited ledger state key := by
  rintro ⟨other, pending⟩
  exact done ((locked.key key).exclusive (pendingAt_holdsKey pending) held ▸ pending)

theorem balance_lt {state : State Thread} (balanced : Balanced state) (ledger : Ledger) :
    balance ledger state < 2 ^ 64 := by
  have creditedFits := Nat.lt_of_le_of_lt (@credited_le ledger (Uncredited ledger state) state.shared.files)
    (balanced.fits ledger)
  have owedFits := @account_lt Thread state.shared.evictionMutex
    (fun thread => owedAt ledger (state.phases thread)) capacity (Nat.two_pow_pos 63) (balanced.owedFits ledger)
  unfold balance
  simp only [capacity] at creditedFits owedFits
  omega

theorem seeded_balanced {setting : Setting} {state : State Thread} (seeded : Seeded setting state.shared)
    (idle : ∀ thread, state.phases thread = .idle) : Balanced state := by
  have fits (ledger : Ledger) : total ledger.weigh state.shared.files < capacity := by
    cases ledger with
    | bytes => exact seeded.bytesFit
    | entries =>
      rw [weigh_entries]
      exact seeded.entriesFit
  have nothing (ledger : Ledger) : balance ledger state = total ledger.weigh state.shared.files := by
    refine balance_settled (fun thread => ?_)
    rw [idle thread]
    exact ⟨fun _ pending => pending, rfl⟩
  refine ⟨fits, fun ledger thread => ?_, fun ledger => ?_⟩
  · rw [idle thread]
    exact Nat.two_pow_pos 63
  · rw [nothing]
    cases ledger with
    | bytes => exact seeded.currentBytes
    | entries =>
      rw [weigh_entries]
      exact seeded.currentEntries

variable [DecidableEq Thread] {setting : Setting}

theorem effect_fits {thread : Thread} {action : Action} {shared shared' : Shared Thread}
    (fits : ∀ ledger : Ledger, total ledger.weigh shared.files < capacity)
    (acted : effect thread action shared = some shared') (ledger : Ledger) :
    total ledger.weigh shared'.files < capacity := by
  have frame := (@effect_frame Thread _ ledger thread shared shared' action acted).1
  cases action with
  | rename key contents mtime =>
    simp only [effect] at acted
    split at acted
    · rename_i room
      obtain rfl := Option.some.inj acted
      have erased := total_erase_le ledger.weigh key shared.files
      rw [total_insert]
      cases ledger with
      | bytes =>
        rw [weigh_bytes, weigh_bytes] at erased
        simp only [weigh_bytes, Ledger.weigh, Ledger.amount]
        omega
      | entries =>
        rw [weigh_entries, weigh_entries] at erased
        simp only [weigh_entries, Ledger.weigh, Ledger.amount]
        omega
    · cases acted
  | remove key removed =>
    cases removed with
    | true =>
      obtain ⟨_, _, rfl⟩ := Option.map_eq_some_iff.mp acted
      exact Nat.lt_of_le_of_lt (total_erase_le ledger.weigh key shared.files) (fits ledger)
    | false =>
      rw [frame rfl]
      exact fits ledger
  | touch key mtime =>
    obtain ⟨file, isFile, rfl⟩ := Option.map_eq_some_iff.mp acted
    rw [total_insert]
    have before := fits ledger
    rw [total_erase isFile] at before
    exact before
  | _ =>
    rw [frame rfl]
    exact fits ledger

/-- What a sweep owes is no more than it found in the directory. -/
theorem moves_owed {phase phase' : Phase} {action : Action} {thread : Thread} {shared shared' : Shared Thread}
    (moves : Moves setting phase action phase') (acted : effect thread action shared = some shared')
    (asserted : Asserted (stored shared) phase) {ledger : Ledger}
    (fits : total ledger.weigh shared.files < capacity) (owedFits : owedAt ledger phase < capacity) :
    owedAt ledger phase' < capacity := by
  have small : 1 < capacity := Nat.one_lt_two_pow (by decide)
  cases moves with
  | task taskMoves =>
    cases taskMoves with
    | sweep sweepMoves =>
      cases sweepMoves with
      | @removed candidate =>
        obtain ⟨file, isFile, _⟩ := Option.map_eq_some_iff.mp acted
        have sized := asserted.2.sized candidate.entry (List.mem_cons_self ..)
        rw [stored, isFile] at sized
        have weighed := @weight_le_total _ _ _ ledger.weigh _ _ _ isFile
        rw [Ledger.weigh, Option.some.inj sized] at weighed
        exact Nat.lt_of_le_of_lt weighed fits
      | debitBytes =>
        cases ledger with
        | bytes => exact Nat.two_pow_pos 63
        | entries => exact small
      | _ => exact Nat.two_pow_pos 63
    | _ => exact Nat.two_pow_pos 63
  | _ => exact Nat.two_pow_pos 63

theorem step_follows {state state' : State Thread} {thread : Thread} {action : Action} {ledger : Ledger}
    (locked : Locked state) (locked' : Locked state')
    (step : Step (program setting Thread) state thread action state') :
    Follows ledger (state.phases thread) (state'.phases thread) (Uncredited ledger state)
      (Uncredited ledger state') where
  pending _ isPending := ⟨thread, isPending⟩
  pending' _ isPending := ⟨thread, isPending⟩
  done _ := not_uncredited locked
  done' _ := not_uncredited locked'
  same key same := by
    refine exists_congr (fun other => ?_)
    by_cases isThread : other = thread
    · rw [isThread]
      exact same
    · rw [step.others other isThread]

theorem step_balance {state state' : State Thread} {thread : Thread} {action : Action} (ledger : Ledger)
    (locked : Locked state) (locked' : Locked state')
    (asserted : Asserted (stored state.shared) (state.phases thread))
    (step : Step (program setting Thread) state thread action state') :
    balance ledger state' + ledger.debit action = balance ledger state + ledger.credit action := by
  have conserved := moves_conserve step.moved step.acted asserted
    (@step_follows Thread _ setting state state' thread action ledger locked locked' step)
  have accounts := @Guards.account_step Thread _ _ _ _ thread
    (fun thread => owedAt ledger (state.phases thread))
    (fun thread => owedAt ledger (state'.phases thread)) locked.eviction locked'.eviction
    (fun other isOther => by rw [step.others other isOther]; exact ⟨Iff.rfl, rfl⟩) owedAt_unheld
    owedAt_unheld
  unfold Conserved at conserved
  unfold balance
  omega

theorem step_balanced {state state' : State Thread} {thread : Thread} {action : Action}
    (balanced : Balanced state) (locked : Locked state) (locked' : Locked state')
    (asserted : Asserted (stored state.shared) (state.phases thread))
    (step : Step (program setting Thread) state thread action state') : Balanced state' where
  fits := effect_fits balanced.fits step.acted
  owedFits ledger other := by
    by_cases same : other = thread
    · rw [same]
      exact moves_owed step.moved step.acted asserted (balanced.fits ledger) (balanced.owedFits ledger thread)
    · rw [step.others other same]
      exact balanced.owedFits ledger other
  counter ledger := by
    have change := step_balance ledger locked locked' asserted step
    have counted := (@effect_frame Thread _ ledger thread _ _ action step.acted).2
    rw [counted, balanced.counter ledger, ← UInt64.ofNat_add, ← change, UInt64.ofNat_add,
      UInt64.add_sub_cancel]

theorem reachable_balanced {state : State Thread} (reachable : Reachable (system setting Thread) state) :
    Balanced state := by
  obtain ⟨trace, run⟩ := reachable
  refine @Run.invariant _ _ _ (fun _ state => Balanced state) trace state run
    (fun state initial => seeded_balanced initial.1 initial.2)
    (fun trace state label state' run balanced step => ?_)
  have before : Reachable (system setting Thread) state := ⟨trace, run⟩
  exact step_balanced balanced (reachable_locked before) (reachable_locked (before.next step))
    (reachable_asserted before label.1) step

/-- A call is populating an entry or sweeping. -/
def InFlight : Phase → Prop
  | .serving _ (.creating _) => True
  | .serving _ (.copying ..) => True
  | .serving _ (.closing _) => True
  | .serving _ (.publishing _) => True
  | .serving _ (.creditingBytes _) => True
  | .serving _ .creditingEntry => True
  | .serving _ .budgeting => True
  | .serving _ (.sweeping _) => True
  | _ => False

theorem settled_of_quiet {phase : Phase} (quiet : ¬ InFlight phase) (ledger : Ledger) :
    (∀ key, ¬ pendingAt ledger phase key) ∧ owedAt ledger phase = 0 := by
  cases phase with
  | serving uri task =>
    cases task with
    | creditingBytes | creditingEntry | sweeping => exact absurd trivial quiet
    | _ => exact ⟨fun key pending => pending.2, rfl⟩
  | _ => exact ⟨fun key pending => pending, rfl⟩

/-- A subtraction takes off no more than a counter holds. -/
theorem debit_le {state state' : State Thread} (reachable : Reachable (system setting Thread) state)
    {thread : Thread} {action : Action} (step : (system setting Thread).step state (thread, action) state')
    (ledger : Ledger) : ledger.debit action ≤ (ledger.counter state.shared).toNat := by
  have balanced := reachable_balanced reachable
  have change := step_balance ledger (reachable_locked reachable) (reachable_locked (reachable.next step))
    (reachable_asserted reachable thread) step
  rw [balanced.counter ledger, UInt64.toNat_ofNat_of_lt' (balance_lt balanced ledger)]
  cases ledger <;> cases action <;> simp only [Ledger.debit, Ledger.credit] at change ⊢ <;> omega

/-- The counters never wrap, and they are exact whenever no populate and no sweep is under way. -/
theorem counters_exact {state : State Thread} (reachable : Reachable (system setting Thread) state) :
    (∀ thread size state', (system setting Thread).step state (thread, .subBytes size) state' →
        size ≤ state.shared.currentBytes.toNat) ∧
      (∀ thread state', (system setting Thread).step state (thread, .subEntry) state' →
        1 ≤ state.shared.currentEntries.toNat) ∧
      ((∀ thread, ¬ InFlight (state.phases thread)) →
        state.shared.currentBytes.toNat = total fileSize state.shared.files ∧
          state.shared.currentEntries.toNat = state.shared.files.entries.length) := by
  have balanced := reachable_balanced reachable
  refine ⟨fun thread size state' step => debit_le reachable step .bytes,
    fun thread state' step => debit_le reachable step .entries, fun quiet => ?_⟩
  have counted (ledger : Ledger) :
      (ledger.counter state.shared).toNat = total ledger.weigh state.shared.files := by
    rw [balanced.counter ledger, UInt64.toNat_ofNat_of_lt' (balance_lt balanced ledger)]
    exact balance_settled (fun thread => settled_of_quiet (quiet thread) ledger)
  refine ⟨counted .bytes, ?_⟩
  rw [← weigh_entries]
  exact counted .entries

end Runs

/-- A call has published its object and evicted an older one while another call waits: the debit on the way takes off
no more than there is, and the counters are exact when the call has returned. -/
theorem counters_exact_relieved :
    1 ≤ (evictedState "older.cache" "s3://lake/orders").shared.currentBytes.toNat ∧
      (relievedState "older.cache" "s3://lake/orders").shared.currentBytes.toNat =
          total fileSize (relievedState "older.cache" "s3://lake/orders").shared.files ∧
        (relievedState "older.cache" "s3://lake/orders").shared.currentEntries.toNat =
          (relievedState "older.cache" "s3://lake/orders").shared.files.entries.length := by
  have foreign : cacheFileName "s3://lake/orders" ≠ "older.cache" := by decide +kernel
  have debits : Step (program crowdedSetting Bool) (evictedState "older.cache" "s3://lake/orders") true
      (.subBytes 1) _ :=
    step_of_move (.task (.sweep .debitBytes)) rfl
  refine ⟨(@counters_exact Bool _ crowdedSetting _ (reachable_evicted foreign)).1 true 1 _ debits, ?_⟩
  refine (@counters_exact Bool _ crowdedSetting _ (reachable_relieved foreign)).2.2 (fun thread inFlight => ?_)
  cases thread <;> exact inFlight

end KernelLake.NvmeCacheAccounting
