import KernelLake.GpuJoins
import KernelLake.Library.Grouping
import KernelLake.Library.PartitionedJoins

/-!
Spilled joins produce the rows of joins in memory.

The argument is made once for the machine both operators run on. `Implements` says what its parts
have to do: probing one batch yields the joined rows of that batch. `owed` is the join of all probe
batches that have not been read yet, bucket by bucket, and every call of `next` hands out a part of
it. Both modes therefore return the join of everything they were given.
-/

namespace KernelLake.GpuJoinProofs

open KernelLake.Types KernelLake.Expressions KernelLake.Evaluation KernelLake.LogicalPlans
open KernelLake.GpuJoins
open KernelLake.Library.Relations KernelLake.Library.Grouping KernelLake.Library.PartitionedJoins
open KernelLake.Library.Pulling

/-! ## Row positions -/

section Positions

variable {α β γ : Type}

theorem map_getD_range (rows : List α) (default : α) :
    (List.range rows.length).map (fun index => rows.getD index default) = rows := by
  refine List.ext_getElem (by simp) (fun index inside _ => ?_)
  simp at inside
  simp [inside]

theorem flatMap_getD_range (rows : List α) (default : α) (expand : α → List γ) :
    (List.range rows.length).flatMap (fun index => expand (rows.getD index default)) =
      rows.flatMap expand := by
  conv_rhs => rw [← map_getD_range rows default, List.flatMap_map]

theorem map_filter_range (rows : List α) (default : α) (keep : α → Bool) :
    ((List.range rows.length).filter (fun index => keep (rows.getD index default))).map
      (fun index => rows.getD index default) = rows.filter keep := by
  conv_rhs => rw [← map_getD_range rows default, List.filter_map]
  rfl

theorem getD_map_default (read : α → β) (rows : List α) (default : α) (index : Nat) :
    (rows.map read).getD index (read default) = read (rows.getD index default) := by
  simp [List.getD_eq_getElem?_getD]

theorem flatMap_if_single (rows : List α) (keep : α → Bool) :
    rows.flatMap (fun row => if keep row then [row] else []) = rows.filter keep := by
  induction rows with
  | nil => rfl
  | cons row rows hypothesis =>
    rw [List.flatMap_cons, List.filter_cons, hypothesis]
    split <;> rfl

end Positions

/-! ## Spilled files -/

section Spilling

variable {width : Nat} {cudf : CudfJoin} {keyIndex : Fin width} {count : Nat}

theorem nullRow_get (index : Fin width) : (nullRow width).get index = .null := by
  simp [nullRow, Vector.get]

/-- The bucket of a row. -/
def rowBucket (cudf : CudfJoin) (keyIndex : Fin width) (count : Nat) (row : Vector Value width) : Nat :=
  cudf.bucketOf count (row.get keyIndex)

/-- What the files of one side hold once some batches have been spilled. -/
structure Spills (cudf : CudfJoin) (keyIndex : Fin width) (count : Nat)
    (batches : List (DeviceBatch width)) (spilled : Spilled width) : Prop where
  rows : ∀ bucket < count, (spilled.files bucket).flatten.Perm
    (batches.flatten.filter (fun row => rowBucket cudf keyIndex count row = bucket))
  empty : ∀ bucket, spilled.nonempty bucket = false → spilled.files bucket = []
  nonempty : ∀ bucket, spilled.nonempty bucket = true → (spilled.files bucket).flatten ≠ []

/-- The slice of a reordered batch for one bucket. -/
def sliceOf (reordered : DeviceBatch width) (offsets : List Nat) (bucket : Nat) : DeviceBatch width :=
  (reordered.drop (offsets.getD bucket 0)).take (offsets.getD (bucket + 1) 0 - offsets.getD bucket 0)

theorem foldl_spillSlice (reordered : DeviceBatch width) (offsets : List Nat) (buckets : List Nat)
    (once : buckets.Nodup) (spilled : Spilled width) (bucket : Nat) :
    (buckets.foldl (spillSlice reordered offsets) spilled).files bucket =
        spilled.files bucket ++
          (if bucket ∈ buckets ∧ offsets.getD bucket 0 ≠ offsets.getD (bucket + 1) 0
            then [sliceOf reordered offsets bucket] else []) ∧
      (buckets.foldl (spillSlice reordered offsets) spilled).nonempty bucket =
        (spilled.nonempty bucket ||
          decide (bucket ∈ buckets ∧ offsets.getD bucket 0 ≠ offsets.getD (bucket + 1) 0)) := by
  induction buckets generalizing spilled with
  | nil => simp
  | cons first rest hypothesis =>
    obtain ⟨fresh, restOnce⟩ := List.nodup_cons.mp once
    obtain ⟨files, nonempty⟩ := hypothesis restOnce (spillSlice reordered offsets spilled first)
    rw [List.foldl_cons, files, nonempty]
    by_cases same : bucket = first
    · subst same
      simp only [fresh, List.mem_cons, true_or, true_and, false_and, if_false, decide_false,
        Bool.or_false, List.append_nil]
      by_cases equal : offsets.getD bucket 0 = offsets.getD (bucket + 1) 0
      · simp only [spillSlice, ne_eq, equal, not_true_eq_false, if_true, if_false, decide_false,
          List.append_nil, Bool.or_false, and_self]
      · simp only [spillSlice, Spilled.write, Function.update_self, sliceOf, ne_eq, equal,
          not_false_eq_true, if_true, if_false, decide_true, Bool.or_true, and_self]
    · simp only [List.mem_cons, same, false_or]
      by_cases equal : offsets.getD first 0 = offsets.getD (first + 1) 0
      · simp only [spillSlice, if_pos equal, and_self]
      · simp only [spillSlice, if_neg equal, Spilled.write, Function.update_of_ne same, and_self]

theorem gather_filter_range (batch : DeviceBatch width) (keep : Vector Value width → Bool) :
    gather batch ((List.range batch.length).filter (fun index => keep (batch.getD index (nullRow width)))) =
      batch.filter keep :=
  map_filter_range batch (nullRow width) keep

/-- The slice of a bucket holds the rows of the batch that fall into it. -/
theorem sliceOf_perm (cudf : CudfJoin) (keyIndex : Fin width) (positive : 0 < count)
    (batch : DeviceBatch width) {bucket : Nat} (inside : bucket < count) :
    let partition := cudf.hashPartition count (batch.map (fun row => row.get keyIndex))
    (sliceOf (gather batch partition.1) partition.2 bucket).Perm
      (batch.filter (fun row => rowBucket cudf keyIndex count row = bucket)) := by
  intro partition
  have slice := cudf.hashPartition_slice positive (batch.map (fun row => row.get keyIndex)) bucket inside
  have positions : (List.range (batch.map (fun row => row.get keyIndex)).length).filter (fun index =>
      cudf.bucketOf count ((batch.map (fun row => row.get keyIndex)).getD index .null) = bucket) =
        (List.range batch.length).filter (fun index =>
          rowBucket cudf keyIndex count (batch.getD index (nullRow width)) = bucket) := by
    rw [List.length_map]
    refine List.filter_congr (fun index _ => ?_)
    rw [rowBucket, ← getD_map_default (fun row : Vector Value width => row.get keyIndex), nullRow_get]
  rw [positions] at slice
  rw [sliceOf, gather, ← List.map_drop, ← List.map_take]
  exact (slice.map _).trans (.of_eq (gather_filter_range batch
    (fun row => rowBucket cudf keyIndex count row = bucket)))

theorem spillBatch_spills (positive : 0 < count) {batches : List (DeviceBatch width)}
    {spilled : Spilled width} (spills : Spills cudf keyIndex count batches spilled)
    (batch : DeviceBatch width) :
    Spills cudf keyIndex count (batches ++ [batch]) (spillBatch cudf keyIndex count spilled batch) := by
  unfold spillBatch
  by_cases none : batch.isEmpty = true
  · rw [if_pos none, List.isEmpty_iff.mp none]
    refine ⟨fun bucket inside => ?_, spills.empty, spills.nonempty⟩
    simpa using spills.rows bucket inside
  · rw [if_neg none]
    have fold := foldl_spillSlice
      (gather batch (cudf.hashPartition count (batch.map (fun row => row.get keyIndex))).1)
      (cudf.hashPartition count (batch.map (fun row => row.get keyIndex))).2
      (List.range count) List.nodup_range spilled
    refine ⟨fun bucket inside => ?_, fun bucket absent => ?_, fun bucket present => ?_⟩
    · have slice := sliceOf_perm cudf keyIndex positive batch inside
      rw [(fold bucket).1, List.flatten_append, List.flatten_append, List.filter_append]
      refine (spills.rows bucket inside).append ?_
      rw [List.flatten_singleton]
      refine List.Perm.trans (.of_eq ?_) slice
      split
      · exact List.flatten_singleton
      · rename_i skipped
        have same := not_not.mp (fun other => skipped ⟨List.mem_range.mpr inside, other⟩)
        rw [sliceOf, same, Nat.sub_self, List.take_zero, List.flatten_nil]
    · rw [(fold bucket).2, Bool.or_eq_false_iff, decide_eq_false_iff_not] at absent
      rw [(fold bucket).1, spills.empty bucket absent.1, if_neg absent.2, List.nil_append]
    · rw [(fold bucket).2, Bool.or_eq_true, decide_eq_true_iff] at present
      rw [(fold bucket).1, List.flatten_append]
      rcases present with before | ⟨member, differ⟩
      · exact List.append_ne_nil_of_left_ne_nil (spills.nonempty bucket before) _
      · refine List.append_ne_nil_of_right_ne_nil _ ?_
        have inside := List.mem_range.mp member
        obtain ⟨ordered, within⟩ := cudf.hashPartition_offsets positive
          (batch.map (fun row => row.get keyIndex)) bucket inside
        have length := cudf.hashPartition_length positive (batch.map (fun row => row.get keyIndex))
        rw [if_pos ⟨member, differ⟩, List.flatten_singleton, ← List.length_pos_iff, sliceOf, gather,
          List.length_take, List.length_drop, List.length_map]
        omega

theorem spillPartitionedToDisk_spills (cudf : CudfJoin) (keyIndex : Fin width) (positive : 0 < count)
    (batches : List (DeviceBatch width)) :
    Spills cudf keyIndex count batches (spillPartitionedToDisk cudf keyIndex count batches) := by
  have start : Spills cudf keyIndex count [] (Spilled.initial width) :=
    ⟨fun _ _ => .refl _, fun _ _ => rfl, fun _ absent => by simp [Spilled.initial] at absent⟩
  have run (before : List (DeviceBatch width)) (spilled : Spilled width)
      (spills : Spills cudf keyIndex count before spilled) :
      Spills cudf keyIndex count (before ++ batches)
        (batches.foldl (spillBatch cudf keyIndex count) spilled) := by
    induction batches generalizing before spilled with
    | nil => rwa [List.append_nil]
    | cons batch batches hypothesis =>
      have next := hypothesis _ _ (spillBatch_spills positive spills batch)
      rwa [List.append_assoc] at next
  exact run [] _ start

end Spilling

/-! ## The machine -/

section Machine

variable {leftWidth rightWidth outputWidth : Nat}
variable {behaviour : JoinBehaviour leftWidth rightWidth outputWidth}
variable {on : Vector Value leftWidth → Vector Value rightWidth → Bool}
variable {finish : Vector Value leftWidth → List (Vector Value rightWidth) → List (Vector Value outputWidth)}

/-- The parts of an operator compute a join, one probe batch at a time. -/
structure Implements (behaviour : JoinBehaviour leftWidth rightWidth outputWidth)
    (on : Vector Value leftWidth → Vector Value rightWidth → Bool)
    (finish : Vector Value leftWidth → List (Vector Value rightWidth) → List (Vector Value outputWidth)) :
    Prop where
  orderless : ∀ row {first second}, first.Perm second → (finish row first).Perm (finish row second)
  unmatched : behaviour.keepsUnmatched = false → ∀ row, finish row [] = []
  passes : behaviour.keepsUnmatched = true → ∀ batch,
    ((behaviour.passUnmatched batch).getD []).Perm (joinRows on finish batch [])
  buildsNone : (behaviour.buildHashJoin none).rightIsEmpty = true
  buildsEmpty : (behaviour.buildHashJoin (some [])).rightIsEmpty = true
  builds : ∀ rows, rows ≠ [] → (behaviour.buildHashJoin (some rows)).rightIsEmpty = false
  probes : ∀ rows, rows ≠ [] → ∀ batch, ∃ output,
    behaviour.probeOneBatch (behaviour.buildHashJoin (some rows)) batch = .ok output ∧
      (output.getD []).Perm (joinRows on finish batch rows)

theorem joinRows_nil (implements : Implements behaviour on finish)
    (drops : behaviour.keepsUnmatched = false) (left : List (Vector Value leftWidth)) :
    joinRows on finish left [] = [] := by
  simp [joinRows, matching, implements.unmatched drops]

/-- What is built answers probes for the right rows, and is known to be empty only if they are. -/
structure BuiltFor (behaviour : JoinBehaviour leftWidth rightWidth outputWidth)
    (on : Vector Value leftWidth → Vector Value rightWidth → Bool)
    (finish : Vector Value leftWidth → List (Vector Value rightWidth) → List (Vector Value outputWidth))
    (right : List (Vector Value rightWidth)) (built : BuildState rightWidth) : Prop where
  answers : ∀ batch, ∃ output, probeOrPass behaviour built batch = .ok output ∧
    (output.getD []).Perm (joinRows on finish batch right)
  empty : built.rightIsEmpty = true → right = []

theorem builtFor_nil (implements : Implements behaviour on finish) {built : BuildState rightWidth}
    (empty : built.rightIsEmpty = true) : BuiltFor behaviour on finish [] built where
  empty _ := rfl
  answers batch := by
    rw [probeOrPass, if_pos empty]
    cases keeps : behaviour.keepsUnmatched with
    | false => exact ⟨none, rfl, by rw [joinRows_nil implements keeps]; exact .refl _⟩
    | true => exact ⟨_, rfl, implements.passes keeps batch⟩

theorem builtFor_rows (implements : Implements behaviour on finish) {rows : List (Vector Value rightWidth)}
    (some_rows : rows ≠ []) : BuiltFor behaviour on finish rows (behaviour.buildHashJoin (some rows)) where
  empty none := by rw [implements.builds rows some_rows] at none; cases none
  answers batch := by
    rw [probeOrPass, implements.builds rows some_rows]
    exact implements.probes rows some_rows batch

/-- Pulling from a list of probe batches hands out the first part of their join. -/
theorem pullBatches_owed {right : List (Vector Value rightWidth)} {built : BuildState rightWidth}
    (holds : BuiltFor behaviour on finish right built) (batches : List (DeviceBatch leftWidth)) :
    (pullBatches behaviour built batches = .ok (none, []) ∧
        joinRows on finish batches.flatten right = []) ∨
      ∃ output rest, pullBatches behaviour built batches = .ok (some output, rest) ∧
        rest.length < batches.length ∧ rest = batches.drop (batches.length - rest.length) ∧
        (joinRows on finish batches.flatten right).Perm (output ++ joinRows on finish rest.flatten right) := by
  induction batches with
  | nil => exact .inl ⟨rfl, rfl⟩
  | cons batch batches hypothesis =>
    obtain ⟨output, answered, same⟩ := holds.answers batch
    rw [pullBatches, answered, List.flatten_cons, joinRows_append]
    cases output with
    | some output =>
      refine .inr ⟨output, batches, rfl, by simp, by simp, same.symm.append_right _⟩
    | none =>
      have nothing := List.nil_perm.mp same
      rw [nothing, List.nil_append]
      rcases hypothesis with done | ⟨output, rest, pulled, fewer, suffix, owed⟩
      · exact .inl done
      · refine .inr ⟨output, rest, pulled, by simp; omega, ?_, owed⟩
        rw [List.length_cons, Nat.succ_sub (Nat.le_of_lt fewer), List.drop_succ_cons]
        exact suffix

/-! ### In memory -/

theorem pulls_memory {right : List (Vector Value rightWidth)} {opened : Opened leftWidth rightWidth}
    (memory : opened.partitionCount ≤ 1) (state : JoinState leftWidth rightWidth)
    (holds : BuiltFor behaviour on finish right state.built) :
    Pulls (nextBatch behaviour opened) id (fun state => BuiltFor behaviour on finish right state.built)
      (fun state => joinRows on finish state.left.flatten right) (fun state => state.left.length) state := by
  unfold Pulls nextBatch
  rw [if_pos memory]
  rcases pullBatches_owed holds state.left with ⟨pulled, nothing⟩ | ⟨output, rest, pulled, fewer, _, owed⟩
  · rw [pulled]
    exact .inl ⟨_, rfl, nothing⟩
  · rw [pulled]
    exact .inr ⟨output, _, rfl, holds, fewer, owed⟩

theorem drain_memory {right : List (Vector Value rightWidth)} {opened : Opened leftWidth rightWidth}
    (memory : opened.partitionCount ≤ 1) (state : JoinState leftWidth rightWidth)
    (holds : BuiltFor behaviour on finish right state.built) {fuel : Nat}
    (enough : state.left.length < fuel) :
    ∃ batches, drain (nextBatch behaviour opened) fuel state = some batches ∧
      batches.flatten.Perm (joinRows on finish state.left.flatten right) := by
  obtain ⟨batches, drained, same⟩ := drain_perm (pulls_memory memory) fuel state holds enough
  rw [List.flatMap_id] at same
  exact ⟨batches, drained, same⟩

/-! ### In buckets -/

section Buckets

variable {opened : Opened leftWidth rightWidth}

/-- Where the reader of the current bucket stands. -/
def position (state : JoinState leftWidth rightWidth) : Nat :=
  if state.probeReader.isNone then 0 else state.probeBatchIndex

/-- The rows of a bucket that its probe batches from a position on produce. -/
def bucketRows (on : Vector Value leftWidth → Vector Value rightWidth → Bool)
    (finish : Vector Value leftWidth → List (Vector Value rightWidth) → List (Vector Value outputWidth))
    (opened : Opened leftWidth rightWidth) (bucket index : Nat) : List (Vector Value outputWidth) :=
  joinRows on finish ((opened.probe.files bucket).drop index).flatten (opened.build.files bucket).flatten

def owedBuckets (on : Vector Value leftWidth → Vector Value rightWidth → Bool)
    (finish : Vector Value leftWidth → List (Vector Value rightWidth) → List (Vector Value outputWidth))
    (opened : Opened leftWidth rightWidth) : Nat → Nat → Nat → List (Vector Value outputWidth)
  | 0, _, _ => []
  | remaining + 1, bucket, index =>
    bucketRows on finish opened bucket index ++ owedBuckets on finish opened remaining (bucket + 1) 0

def remainingBatches (opened : Opened leftWidth rightWidth) : Nat → Nat → Nat → Nat
  | 0, _, _ => 0
  | remaining + 1, bucket, index =>
    ((opened.probe.files bucket).drop index).length + remainingBatches opened remaining (bucket + 1) 0

/-- An open reader reads the current bucket, and what is marked as built is built for it. -/
structure Ready (behaviour : JoinBehaviour leftWidth rightWidth outputWidth)
    (on : Vector Value leftWidth → Vector Value rightWidth → Bool)
    (finish : Vector Value leftWidth → List (Vector Value rightWidth) → List (Vector Value outputWidth))
    (opened : Opened leftWidth rightWidth) (state : JoinState leftWidth rightWidth) : Prop where
  reader : ∀ reader, state.probeReader = some reader → reader = opened.probe.files state.currentPartition
  built : state.currentPartitionBuilt = true →
    BuiltFor behaviour on finish (opened.build.files state.currentPartition).flatten state.built

/-- Files and flags agree. -/
structure Consistent {width : Nat} (spilled : Spilled width) : Prop where
  empty : ∀ bucket, spilled.nonempty bucket = false → spilled.files bucket = []
  nonempty : ∀ bucket, spilled.nonempty bucket = true → (spilled.files bucket).flatten ≠ []

theorem ensurePartitionBuilt_ready (implements : Implements behaviour on finish)
    (files : Consistent opened.build) {state : JoinState leftWidth rightWidth}
    (ready : Ready behaviour on finish opened state) :
    let built := ensurePartitionBuilt behaviour opened state
    Ready behaviour on finish opened built ∧ built.currentPartition = state.currentPartition ∧
      built.probeReader = state.probeReader ∧ built.probeBatchIndex = state.probeBatchIndex ∧
      BuiltFor behaviour on finish (opened.build.files state.currentPartition).flatten built.built := by
  intro built
  simp only [built, ensurePartitionBuilt]
  by_cases done : state.currentPartitionBuilt = true
  · rw [if_pos done]
    exact ⟨ready, rfl, rfl, rfl, ready.built done⟩
  rw [if_neg done]
  cases flag : opened.build.nonempty state.currentPartition with
  | false =>
    have holds : BuiltFor behaviour on finish (opened.build.files state.currentPartition).flatten
        ⟨none, none, true⟩ := by
      rw [files.empty _ flag]
      exact builtFor_nil implements rfl
    exact ⟨⟨ready.reader, fun _ => holds⟩, rfl, rfl, rfl, holds⟩
  | true =>
    have holds := builtFor_rows implements (files.nonempty _ flag)
    exact ⟨⟨ready.reader, fun _ => holds⟩, rfl, rfl, rfl, holds⟩

/-- One call on the current bucket hands out the first part of what it still owes, or finds that it
owes nothing. -/
theorem probeBucket_owed (implements : Implements behaviour on finish)
    (buildFiles : Consistent opened.build) (probeFiles : Consistent opened.probe)
    {state : JoinState leftWidth rightWidth} (ready : Ready behaviour on finish opened state) :
    (∃ after, probeBucket behaviour opened state = .ok (none, after) ∧
        after.currentPartition = state.currentPartition ∧
        bucketRows on finish opened state.currentPartition (position state) = []) ∨
      ∃ output after, probeBucket behaviour opened state = .ok (some output, after) ∧
        Ready behaviour on finish opened after ∧ after.currentPartition = state.currentPartition ∧
        ((opened.probe.files state.currentPartition).drop (position after)).length <
          ((opened.probe.files state.currentPartition).drop (position state)).length ∧
        (bucketRows on finish opened state.currentPartition (position state)).Perm
          (output ++ bucketRows on finish opened state.currentPartition (position after)) := by
  obtain ⟨builtReady, sameBucket, sameReader, sameIndex, holds⟩ :=
    ensurePartitionBuilt_ready implements buildFiles ready
  have reader : (ensurePartitionBuilt behaviour opened state).probeReader.getD
      (opened.probe.files state.currentPartition) = opened.probe.files state.currentPartition := by
    rw [sameReader]
    cases found : state.probeReader with
    | none => rfl
    | some batches => exact ready.reader batches found
  have index : (if (ensurePartitionBuilt behaviour opened state).probeReader.isNone then 0
      else (ensurePartitionBuilt behaviour opened state).probeBatchIndex) = position state := by
    rw [sameReader, sameIndex, position]
  unfold probeBucket
  simp only [reader, index]
  split
  · split
    · -- The bucket is probed from where its reader stands.
      rcases pullBatches_owed holds ((opened.probe.files state.currentPartition).drop (position state)) with
        ⟨pulled, nothing⟩ | ⟨output, rest, pulled, fewer, suffix, owed⟩
      · rw [pulled]
        exact .inl ⟨_, rfl, sameBucket, nothing⟩
      · rw [pulled]
        have within : rest.length ≤ (opened.probe.files state.currentPartition).length := by
          rw [List.length_drop] at fewer
          omega
        have left : (opened.probe.files state.currentPartition).drop
            ((opened.probe.files state.currentPartition).length - rest.length) = rest := by
          conv_rhs => rw [suffix]
          rw [List.drop_drop, List.length_drop]
          rw [List.length_drop] at fewer
          congr 1
          omega
        refine .inr ⟨output, _, rfl, ⟨?_, builtReady.built⟩, sameBucket, ?_, ?_⟩
        · rintro batches ⟨⟩
          rw [sameBucket]
        · simpa only [position, Option.isNone_some, Bool.false_eq_true, if_false, left] using fewer
        · simpa only [position, Option.isNone_some, Bool.false_eq_true, if_false, bucketRows, left] using owed
    · -- Nothing is built although the bucket has build rows: this does not happen.
      rename_i probed guarded
      simp only [Bool.or_eq_true, Bool.not_eq_true', not_or, Bool.not_eq_false, Bool.not_eq_true] at guarded
      have empty := holds.empty guarded.1
      refine .inl ⟨_, rfl, sameBucket, ?_⟩
      rw [bucketRows, empty, joinRows_nil implements guarded.2]
  · rename_i skipped
    refine .inl ⟨_, rfl, rfl, ?_⟩
    rw [bucketRows]
    cases probeFlag : opened.probe.nonempty state.currentPartition with
    | false => rw [probeFiles.empty _ probeFlag, List.drop_nil]; rfl
    | true =>
      cases buildFlag : opened.build.nonempty state.currentPartition with
      | true => simp [probeFlag, buildFlag] at skipped
      | false =>
        have drops : behaviour.keepsUnmatched = false := by
          simpa [probeFlag, buildFlag] using skipped
        rw [buildFiles.empty _ buildFlag]
        exact joinRows_nil implements drops _

theorem nextPartition_ready (state : JoinState leftWidth rightWidth) :
    Ready behaviour on finish opened (nextPartition state) where
  reader reader found := by simp [nextPartition] at found
  built marked := by simp [nextPartition] at marked

/-- A walk over the buckets from the current one on hands out the first part of what they owe. -/
theorem walkPartitions_owed (implements : Implements behaviour on finish)
    (buildFiles : Consistent opened.build) (probeFiles : Consistent opened.probe) (remaining : Nat)
    {state : JoinState leftWidth rightWidth} (ready : Ready behaviour on finish opened state)
    (counted : opened.partitionCount = state.currentPartition + remaining) :
    (∃ after, walkPartitions behaviour opened remaining state = .ok (none, after) ∧
        owedBuckets on finish opened remaining state.currentPartition (position state) = []) ∨
      ∃ output after, walkPartitions behaviour opened remaining state = .ok (some output, after) ∧
        Ready behaviour on finish opened after ∧ after.currentPartition ≤ opened.partitionCount ∧
        remainingBatches opened (opened.partitionCount - after.currentPartition) after.currentPartition
            (position after) <
          remainingBatches opened remaining state.currentPartition (position state) ∧
        (owedBuckets on finish opened remaining state.currentPartition (position state)).Perm
          (output ++ owedBuckets on finish opened (opened.partitionCount - after.currentPartition)
            after.currentPartition (position after)) := by
  induction remaining generalizing state with
  | zero => exact .inl ⟨state, rfl, rfl⟩
  | succ remaining hypothesis =>
    rw [walkPartitions]
    rcases probeBucket_owed implements buildFiles probeFiles ready with
      ⟨after, probed, sameBucket, nothing⟩ | ⟨output, after, probed, afterReady, sameBucket, fewer, owed⟩
    · rw [probed]
      have start : position (nextPartition after) = 0 := rfl
      have bucket : (nextPartition after).currentPartition = state.currentPartition + 1 := by
        rw [nextPartition, sameBucket]
      have rest := hypothesis (nextPartition_ready after) (by rw [bucket, counted]; omega)
      rw [start, bucket] at rest
      simp only [owedBuckets, remainingBatches, nothing, List.nil_append]
      rcases rest with done | ⟨output, last, walked, lastReady, within, fewer, owed⟩
      · exact .inl done
      · exact .inr ⟨output, last, walked, lastReady, within, by omega, owed⟩
    · rw [probed]
      have count : opened.partitionCount - after.currentPartition = remaining + 1 := by
        rw [sameBucket, counted]
        omega
      refine .inr ⟨output, after, rfl, afterReady, by rw [sameBucket, counted]; omega, ?_, ?_⟩
      · rw [count, sameBucket, remainingBatches, remainingBatches]
        omega
      · rw [count, sameBucket, owedBuckets, owedBuckets, ← List.append_assoc]
        exact owed.append_right _

theorem pulls_buckets (implements : Implements behaviour on finish)
    (buildFiles : Consistent opened.build) (probeFiles : Consistent opened.probe)
    (spilled : ¬ opened.partitionCount ≤ 1) (state : JoinState leftWidth rightWidth)
    (ready : Ready behaviour on finish opened state ∧ state.currentPartition ≤ opened.partitionCount) :
    Pulls (nextBatch behaviour opened) id
      (fun state => Ready behaviour on finish opened state ∧ state.currentPartition ≤ opened.partitionCount)
      (fun state => owedBuckets on finish opened (opened.partitionCount - state.currentPartition)
        state.currentPartition (position state))
      (fun state => remainingBatches opened (opened.partitionCount - state.currentPartition)
        state.currentPartition (position state)) state := by
  unfold Pulls nextBatch
  rw [if_neg spilled]
  rcases walkPartitions_owed implements buildFiles probeFiles
      (opened.partitionCount - state.currentPartition) ready.1 (by omega) with
    done | ⟨output, after, walked, afterReady, within, fewer, owed⟩
  · exact .inl done
  · exact .inr ⟨output, after, walked, ⟨afterReady, within⟩, fewer, owed⟩

theorem owedBuckets_start (opened : Opened leftWidth rightWidth) (remaining bucket : Nat) :
    owedBuckets on finish opened remaining bucket 0 = (List.range' bucket remaining).flatMap (fun index =>
      joinRows on finish (opened.probe.files index).flatten (opened.build.files index).flatten) := by
  induction remaining generalizing bucket with
  | zero => rfl
  | succ remaining hypothesis =>
    rw [owedBuckets, hypothesis, List.range'_succ, List.flatMap_cons, bucketRows, List.drop_zero]

/-- From the first bucket on, the machine hands out the joins of all buckets. -/
theorem drain_buckets (implements : Implements behaviour on finish)
    (buildFiles : Consistent opened.build) (probeFiles : Consistent opened.probe)
    (spilled : ¬ opened.partitionCount ≤ 1) (state : JoinState leftWidth rightWidth)
    (first : state.currentPartition = 0) (closed : state.probeReader = none)
    (unbuilt : state.currentPartitionBuilt = false) {fuel : Nat}
    (enough : remainingBatches opened opened.partitionCount 0 0 < fuel) :
    ∃ batches, drain (nextBatch behaviour opened) fuel state = some batches ∧
      batches.flatten.Perm ((List.range opened.partitionCount).flatMap (fun index =>
        joinRows on finish (opened.probe.files index).flatten (opened.build.files index).flatten)) := by
  have atStart : position state = 0 := by rw [position, closed]; rfl
  have ready : Ready behaviour on finish opened state := ⟨by simp [closed], by simp [unbuilt]⟩
  obtain ⟨batches, drained, same⟩ := drain_perm (pulls_buckets implements buildFiles probeFiles spilled) fuel
    state ⟨ready, by omega⟩ (by rw [first, atStart]; exact enough)
  rw [List.flatMap_id, first, atStart, Nat.sub_zero, owedBuckets_start, ← List.range_eq_range'] at same
  exact ⟨batches, drained, same⟩

end Buckets

/-- Whatever the batches and the number of buckets, the machine hands out the join of everything. -/
theorem drain_openJoin (implements : Implements behaviour on finish) (cudf : CudfJoin)
    (leftKeyIndex : Fin leftWidth) (rightKeyIndex : Fin rightWidth)
    (together : ∀ count row other, on row other = true →
      rowBucket cudf leftKeyIndex count row = rowBucket cudf rightKeyIndex count other)
    (partitionCount : Nat) (left : List (DeviceBatch leftWidth)) (right : List (DeviceBatch rightWidth)) :
    let start := openJoin behaviour cudf leftKeyIndex rightKeyIndex partitionCount left right
    ∃ enough, ∀ fuel, enough ≤ fuel → ∃ batches,
      drain (nextBatch behaviour start.1) fuel start.2 = some batches ∧
        batches.flatten.Perm (joinRows on finish left.flatten right.flatten) := by
  simp only [openJoin]
  generalize counted : (if partitionCount = 0 then 1 else partitionCount) = count
  have positive : 0 < count := by
    rw [← counted]
    split <;> omega
  by_cases memory : count ≤ 1
  · rw [if_pos memory]
    refine ⟨left.length + 1, fun fuel enough => ?_⟩
    have holds : BuiltFor behaviour on finish right.flatten
        (behaviour.buildHashJoin (if right.isEmpty then none else some right.flatten)) := by
      by_cases none : right.isEmpty = true
      · rw [if_pos none, List.isEmpty_iff.mp none]
        exact builtFor_nil implements implements.buildsNone
      rw [if_neg none]
      by_cases noRows : right.flatten = []
      · rw [noRows]
        exact builtFor_nil implements implements.buildsEmpty
      · exact builtFor_rows implements noRows
    exact drain_memory memory _ holds enough
  · rw [if_neg memory]
    have buildSpills := spillPartitionedToDisk_spills cudf rightKeyIndex positive right
    have probeSpills := spillPartitionedToDisk_spills cudf leftKeyIndex positive left
    refine ⟨remainingBatches ⟨count, spillPartitionedToDisk cudf rightKeyIndex count right,
      spillPartitionedToDisk cudf leftKeyIndex count left⟩ count 0 0 + 1, fun fuel enough => ?_⟩
    obtain ⟨batches, drained, same⟩ := drain_buckets implements ⟨buildSpills.empty, buildSpills.nonempty⟩
      ⟨probeSpills.empty, probeSpills.nonempty⟩ memory ⟨[], ⟨none, none, false⟩, 0, false, none, 0⟩
      rfl rfl rfl (Nat.lt_of_succ_le enough)
    refine ⟨batches, drained, same.trans ?_⟩
    refine List.Perm.trans ?_ (joinRows_buckets implements.orderless (together count)
      (fun row _ => cudf.bucketOf_lt positive _)).symm
    refine List.Perm.flatMap_left _ (fun bucket member => ?_)
    have inside := List.mem_range.mp member
    exact joinRows_perm implements.orderless (probeSpills.rows bucket inside) (buildSpills.rows bucket inside)

end Machine

/-! ## Matching rows -/

section Matching

variable {leftWidth rightWidth : Nat}

/-- Two rows match when their keys do, nulls among themselves included. -/
def keyRowsMatch (cudf : CudfJoin) (leftKeyIndex : Fin leftWidth) (rightKeyIndex : Fin rightWidth)
    (left : Vector Value leftWidth) (right : Vector Value rightWidth) : Bool :=
  keysMatch cudf.keyEqual .equal (left.get leftKeyIndex) (right.get rightKeyIndex)

theorem keyRowsMatch_bucket (cudf : CudfJoin) (leftKeyIndex : Fin leftWidth) (rightKeyIndex : Fin rightWidth)
    (count : Nat) (left : Vector Value leftWidth) (right : Vector Value rightWidth)
    (same : keyRowsMatch cudf leftKeyIndex rightKeyIndex left right = true) :
    rowBucket cudf leftKeyIndex count left = rowBucket cudf rightKeyIndex count right := by
  unfold keyRowsMatch keysMatch at same
  unfold rowBucket
  split at same
  · rename_i leftNull rightNull
    rw [leftNull, rightNull]
  · cases same
  · cases same
  · exact cudf.bucketOf_equal same count

theorem matchIndices_rows (rightKeyIndex : Fin rightWidth) (keyEqual : Value → Value → Bool)
    (nulls : NullEquality) (rows : List (Vector Value rightWidth)) (key : Value) :
    matchIndices keyEqual nulls (rows.map (fun row => row.get rightKeyIndex)) key =
      (List.range rows.length).filter (fun index =>
        keysMatch keyEqual nulls key ((rows.getD index (nullRow rightWidth)).get rightKeyIndex)) := by
  rw [matchIndices, List.length_map]
  refine List.filter_congr (fun index _ => ?_)
  rw [← getD_map_default (fun row : Vector Value rightWidth => row.get rightKeyIndex), nullRow_get]

theorem gather_matchIndices (rightKeyIndex : Fin rightWidth) (keyEqual : Value → Value → Bool)
    (nulls : NullEquality) (rows : List (Vector Value rightWidth)) (key : Value) :
    (matchIndices keyEqual nulls (rows.map (fun row => row.get rightKeyIndex)) key).map
        (fun index => rows.getD index (nullRow rightWidth)) =
      rows.filter (fun row => keysMatch keyEqual nulls key (row.get rightKeyIndex)) := by
  rw [matchIndices_rows]
  exact map_filter_range rows (nullRow rightWidth) (fun row => keysMatch keyEqual nulls key (row.get rightKeyIndex))

theorem getD_keys (batch : DeviceBatch leftWidth) (leftKeyIndex : Fin leftWidth) (index : Nat) :
    (batch.map (fun row => row.get leftKeyIndex)).getD index .null =
      (batch.getD index (nullRow leftWidth)).get leftKeyIndex := by
  rw [← getD_map_default (fun row : Vector Value leftWidth => row.get leftKeyIndex), nullRow_get]

end Matching

/-! ## Inner and outer joins -/

section HashJoin

variable {leftWidth rightWidth : Nat} (cudf : CudfJoin) (operator : HashJoinOperator leftWidth rightWidth)

/-- What a left row makes of its matches. -/
def finishHashJoin (joinType : JoinType) (row : Vector Value leftWidth)
    (others : List (Vector Value rightWidth)) : List (Vector Value (leftWidth + rightWidth)) :=
  if joinType = .leftOuter ∧ others = [] then [row ++ nullRow rightWidth]
  else others.map (fun other => row ++ other)

/-- The rows of an inner or a left outer join. -/
def hashJoinRows (left : List (Vector Value leftWidth)) (right : List (Vector Value rightWidth)) :
    List (Vector Value (leftWidth + rightWidth)) :=
  joinRows (keyRowsMatch cudf operator.leftKeyIndex operator.rightKeyIndex) (finishHashJoin operator.joinType)
    left right

theorem zipWith_map_pair {α β γ δ : Type} (combine : β → γ → δ) (first : α → β) (second : α → γ)
    (values : List α) :
    List.zipWith combine (values.map first) (values.map second) =
      values.map (fun value => combine (first value) (second value)) := by
  rw [List.zipWith_map, List.zipWith_self]

theorem buildHashJoin_rows {rows : List (Vector Value rightWidth)} (some_rows : rows ≠ []) :
    operator.buildHashJoin (some rows) =
      ⟨some rows, some ⟨rows.map (fun row => row.get operator.rightKeyIndex), .equal⟩, false⟩ := by
  cases rows with
  | nil => exact absurd rfl some_rows
  | cons row rows => rfl

/-- The row a pair of positions stands for. -/
def pairedRow (leftBatch : DeviceBatch leftWidth) (rows : DeviceBatch rightWidth) (pair : Nat × Option Nat) :
    Vector Value (leftWidth + rightWidth) :=
  leftBatch.getD pair.1 (nullRow leftWidth) ++
    (pair.2.map (fun found => rows.getD found (nullRow rightWidth))).getD (nullRow rightWidth)

theorem gatherMaps_perm (rows : DeviceBatch rightWidth) (leftBatch : DeviceBatch leftWidth) :
    ((operator.gatherMaps cudf ⟨rows.map (fun row => row.get operator.rightKeyIndex), .equal⟩ leftBatch).map
      (pairedRow leftBatch rows)).Perm (hashJoinRows cudf operator leftBatch rows) := by
  have matched (index : Nat) (pair : Vector Value rightWidth → Vector Value (leftWidth + rightWidth)) :
      (matchIndices cudf.keyEqual .equal (rows.map (fun row => row.get operator.rightKeyIndex))
        ((leftBatch.getD index (nullRow leftWidth)).get operator.leftKeyIndex)).map
          (fun other => pair (rows.getD other (nullRow rightWidth))) =
        (matching (keyRowsMatch cudf operator.leftKeyIndex operator.rightKeyIndex) rows
          (leftBatch.getD index (nullRow leftWidth))).map pair := by
    rw [← Function.comp_def pair, ← List.map_map, gather_matchIndices]
    rfl
  unfold hashJoinRows joinRows HashJoinOperator.gatherMaps
  rw [← flatMap_getD_range leftBatch (nullRow leftWidth)]
  by_cases outer : operator.joinType = .leftOuter
  · rw [if_pos outer]
    refine ((cudf.leftJoin_perm _ _ _).map _).trans (.of_eq ?_)
    rw [List.map_flatMap, List.length_map]
    refine List.flatMap_congr (fun index _ => ?_)
    have same := matched index (fun other => leftBatch.getD index (nullRow leftWidth) ++ other)
    rw [getD_keys]
    by_cases none : matchIndices cudf.keyEqual .equal (rows.map (fun row => row.get operator.rightKeyIndex))
        ((leftBatch.getD index (nullRow leftWidth)).get operator.leftKeyIndex) = []
    · rw [none, List.map_nil, eq_comm, List.map_eq_nil_iff] at same
      rw [if_pos none, finishHashJoin, if_pos ⟨outer, same⟩]
      rfl
    · have found : matching (keyRowsMatch cudf operator.leftKeyIndex operator.rightKeyIndex) rows
          (leftBatch.getD index (nullRow leftWidth)) ≠ [] := by
        intro nothing
        rw [nothing, List.map_nil, List.map_eq_nil_iff] at same
        exact none same
      rw [if_neg none, finishHashJoin, if_neg (fun both => found both.2), ← same, List.map_map]
      rfl
  · rw [if_neg outer]
    refine (((cudf.innerJoin_perm _ _ _).map _).map _).trans (.of_eq ?_)
    rw [List.map_map, List.map_flatMap, List.length_map]
    refine List.flatMap_congr (fun index _ => ?_)
    rw [getD_keys, List.map_map, finishHashJoin, if_neg (fun both => outer both.1), ← matched]
    rfl

theorem hashJoin_implements : Implements (operator.behaviour cudf)
    (keyRowsMatch cudf operator.leftKeyIndex operator.rightKeyIndex) (finishHashJoin operator.joinType) where
  orderless row first second same := by
    unfold finishHashJoin
    by_cases unmatched : operator.joinType = .leftOuter ∧ first = []
    · have also : second = [] := by rw [unmatched.2] at same; exact List.nil_perm.mp same
      rw [if_pos unmatched, if_pos ⟨unmatched.1, also⟩]
    · have neither : ¬ (operator.joinType = .leftOuter ∧ second = []) := by
        rintro ⟨outer, rfl⟩
        exact unmatched ⟨outer, List.perm_nil.mp same⟩
      rw [if_neg unmatched, if_neg neither]
      exact same.map _
  unmatched drops row := by
    have inner : ¬ operator.joinType = .leftOuter := by
      simpa [HashJoinOperator.behaviour] using drops
    rw [finishHashJoin, if_neg (fun both => inner both.1), List.map_nil]
  passes keeps batch := by
    have outer : operator.joinType = .leftOuter := by
      simpa [HashJoinOperator.behaviour] using keeps
    have extended : joinRows (keyRowsMatch cudf operator.leftKeyIndex operator.rightKeyIndex)
        (finishHashJoin operator.joinType) batch [] = batch.map (fun row => row ++ nullRow rightWidth) := by
      simp only [joinRows, matching, List.filter_nil, finishHashJoin, outer, and_self, if_true]
      rw [← List.map_eq_flatMap]
    rw [extended]
    cases batch with
    | nil => exact .refl _
    | cons row rows => exact .refl _
  buildsNone := rfl
  buildsEmpty := rfl
  builds rows some_rows := by
    change (operator.buildHashJoin (some rows)).rightIsEmpty = false
    rw [buildHashJoin_rows operator some_rows]
  probes rows some_rows batch := by
    have indices := gatherMaps_perm cudf operator rows batch
    change ∃ output, operator.probeOneBatch cudf (operator.buildHashJoin (some rows)) batch = .ok output ∧ _
    rw [buildHashJoin_rows operator some_rows]
    simp only [HashJoinOperator.probeOneBatch]
    split
    · rename_i empty
      refine ⟨none, rfl, ?_⟩
      rw [List.isEmpty_iff.mp empty] at indices
      exact indices
    · refine ⟨_, rfl, List.Perm.trans (.of_eq ?_) indices⟩
      rw [Option.getD_some, gather, gatherNullify, List.map_map, List.map_map]
      exact zipWith_map_pair _ _ _ _

theorem hashJoin_drains (left : List (DeviceBatch leftWidth)) (right : List (DeviceBatch rightWidth)) :
    ∃ enough, ∀ fuel, enough ≤ fuel → ∃ batches,
      drain (operator.next cudf (operator.openOperator cudf left right).1) fuel
          (operator.openOperator cudf left right).2 = some batches ∧
        batches.flatten.Perm (hashJoinRows cudf operator left.flatten right.flatten) :=
  drain_openJoin (hashJoin_implements cudf operator) cudf operator.leftKeyIndex operator.rightKeyIndex
    (keyRowsMatch_bucket cudf _ _) operator.partitionCount left right

/-- A spilled join returns the rows of the join in memory, whatever the batches and the number of
buckets: both return the rows of the join. -/
theorem hashJoin_spilled (left : List (DeviceBatch leftWidth)) (right : List (DeviceBatch rightWidth)) :
    ∃ enough, ∀ more, ∃ spilled whole,
      drain (operator.next cudf (operator.openOperator cudf left right).1) (enough + more)
          (operator.openOperator cudf left right).2 = some spilled ∧
        drain ({ operator with partitionCount := 1 }.next cudf
            ({ operator with partitionCount := 1 }.openOperator cudf left right).1) (enough + more)
          ({ operator with partitionCount := 1 }.openOperator cudf left right).2 = some whole ∧
        spilled.flatten.Perm whole.flatten ∧
        whole.flatten.Perm (hashJoinRows cudf operator left.flatten right.flatten) := by
  obtain ⟨enough, runs⟩ := hashJoin_drains cudf operator left right
  obtain ⟨enough', runs'⟩ := hashJoin_drains cudf { operator with partitionCount := 1 } left right
  refine ⟨enough + enough', fun more => ?_⟩
  obtain ⟨spilled, drained, rows⟩ := runs (enough + enough' + more) (by omega)
  obtain ⟨whole, drained', rows'⟩ := runs' (enough + enough' + more) (by omega)
  exact ⟨spilled, whole, drained, drained', rows.trans rows'.symm, rows'⟩

end HashJoin

/-! ## Semi and anti joins -/

section SemiAntiJoin

variable {leftWidth rightWidth : Nat} (cudf : CudfJoin) (operator : SemiAntiJoinOperator leftWidth rightWidth)

/-- Two rows match when their keys do and the residual predicate, if there is one, is `TRUE`. -/
def residualRowsMatch (left : Vector Value leftWidth) (right : Vector Value rightWidth) : Bool :=
  keyRowsMatch cudf operator.leftKeyIndex operator.rightKeyIndex left right &&
    operator.residualPredicate.all (fun predicate => residualHolds predicate left right)

/-- A left row is a result with a match, or without one. -/
def finishSemiAnti (joinType : JoinType) (row : Vector Value leftWidth)
    (others : List (Vector Value rightWidth)) : List (Vector Value leftWidth) :=
  if (joinType == .leftAnti) = others.isEmpty then [row] else []

/-- The left rows that have a match, or those that have none. -/
def semiAntiRows (left : List (Vector Value leftWidth)) (right : List (Vector Value rightWidth)) :
    List (Vector Value leftWidth) :=
  if operator.joinType = .leftAnti then antiJoin (residualRowsMatch cudf operator) left right
  else semiJoin (residualRowsMatch cudf operator) left right

theorem isEmpty_matching {α β : Type} (on : α → β → Bool) (right : List β) (row : α) :
    (matching on right row).isEmpty = !right.any (on row) := by
  rw [matching, Bool.eq_iff_iff]
  simp [List.filter_eq_nil_iff]

theorem joinRows_semiAnti (left : List (Vector Value leftWidth)) (right : List (Vector Value rightWidth)) :
    joinRows (residualRowsMatch cudf operator) (finishSemiAnti operator.joinType) left right =
      semiAntiRows cudf operator left right := by
  unfold joinRows finishSemiAnti semiAntiRows
  simp only [isEmpty_matching]
  by_cases anti : operator.joinType = .leftAnti
  · simp only [anti, beq_self_eq_true, if_true, antiJoin, eq_comm (a := true)]
    exact flatMap_if_single left _
  · have notAnti : (operator.joinType == .leftAnti) = false := by simpa using anti
    simp only [notAnti, if_neg anti, semiJoin, eq_comm (a := false), Bool.not_eq_false']
    exact flatMap_if_single left _

/-- Positions that select rows gather the selected rows. -/
theorem gather_perm {width : Nat} {batch : DeviceBatch width} {indices : List Nat}
    (keep : Vector Value width → Bool)
    (positions : indices.Perm ((List.range batch.length).filter (fun index =>
      keep (batch.getD index (nullRow width))))) :
    (gather batch indices).Perm (batch.filter keep) :=
  (positions.map _).trans (.of_eq (gather_filter_range batch keep))

theorem any_matchIndices (rows : List (Vector Value rightWidth)) (left : Vector Value leftWidth)
    (leftKeyIndex : Fin leftWidth) (rightKeyIndex : Fin rightWidth)
    (condition : Vector Value rightWidth → Bool) :
    (matchIndices cudf.keyEqual .equal (rows.map (fun row => row.get rightKeyIndex))
        (left.get leftKeyIndex)).any (fun index => condition (rows.getD index (nullRow rightWidth))) =
      rows.any (fun row => keyRowsMatch cudf leftKeyIndex rightKeyIndex left row && condition row) := by
  have found := congrArg (List.any · condition)
    (gather_matchIndices rightKeyIndex cudf.keyEqual .equal rows (left.get leftKeyIndex))
  rw [List.any_map, List.any_filter] at found
  exact found

theorem isEmpty_matchIndices (rows : List (Vector Value rightWidth)) (left : Vector Value leftWidth)
    (leftKeyIndex : Fin leftWidth) (rightKeyIndex : Fin rightWidth) :
    (matchIndices cudf.keyEqual .equal (rows.map (fun row => row.get rightKeyIndex))
        (left.get leftKeyIndex)).isEmpty =
      !rows.any (keyRowsMatch cudf leftKeyIndex rightKeyIndex left) := by
  have found := gather_matchIndices rightKeyIndex cudf.keyEqual .equal rows (left.get leftKeyIndex)
  rw [← List.isEmpty_map, found]
  exact isEmpty_matching (keyRowsMatch cudf leftKeyIndex rightKeyIndex) rows left

/-- The left positions of an inner join, each once, are those with a match. -/
theorem distinct_inner_positions (build probe : List Value) :
    (cudf.distinctIndices ((cudf.innerJoin .equal build probe).map Prod.fst)).Perm
      ((List.range probe.length).filter (fun index =>
        !(matchIndices cudf.keyEqual .equal build (probe.getD index .null)).isEmpty)) := by
  refine (cudf.distinctIndices_perm _).trans ?_
  rw [List.perm_ext_iff_of_nodup (nodup_distinct _) (List.nodup_range.filter _)]
  intro index
  rw [mem_distinct, ((cudf.innerJoin_perm .equal build probe).map Prod.fst).mem_iff]
  simp only [List.map_flatMap, List.mem_flatMap, List.map_map, List.mem_map, List.mem_filter,
    Function.comp_apply, Bool.not_eq_true', List.isEmpty_eq_false_iff_exists_mem]
  constructor
  · rintro ⟨_, inside, other, member, rfl⟩
    exact ⟨inside, other, member⟩
  · rintro ⟨inside, other, member⟩
    exact ⟨index, inside, other, member, rfl⟩

/-- The positions a left join pairs with nothing are those without a match. -/
theorem unmatched_left_positions (build probe : List Value) :
    (((cudf.leftJoin .equal build probe).filter (fun pair => pair.2.isNone)).map Prod.fst).Perm
      ((List.range probe.length).filter (fun index =>
        (matchIndices cudf.keyEqual .equal build (probe.getD index .null)).isEmpty)) := by
  refine (((cudf.leftJoin_perm .equal build probe).filter _).map _).trans (.of_eq ?_)
  rw [List.filter_flatMap, List.map_flatMap, ← flatMap_if_single]
  refine List.flatMap_congr (fun index _ => ?_)
  by_cases none : matchIndices cudf.keyEqual .equal build (probe.getD index .null) = []
  · rw [none]
    rfl
  · rw [if_neg none, if_neg (by simpa using none)]
    simp [List.filter_map, Function.comp_def]

theorem semiAnti_buildHashJoin_rows {rows : List (Vector Value rightWidth)} (some_rows : rows ≠ []) :
    operator.buildHashJoin (some rows) =
      ⟨some rows, if operator.residualPredicate.isSome then none
        else some ⟨rows.map (fun row => row.get operator.rightKeyIndex), .equal⟩, false⟩ := by
  cases rows with
  | nil => exact absurd rfl some_rows
  | cons row rows =>
    simp only [SemiAntiJoinOperator.buildHashJoin]
    split <;> rfl

/-- Positions that select the result rows, returned or empty, give the result. -/
theorem gathered_perm {batch result : DeviceBatch leftWidth} {indices : List Nat}
    (keep : Vector Value leftWidth → Bool)
    (positions : indices.Perm ((List.range batch.length).filter (fun index =>
      keep (batch.getD index (nullRow leftWidth)))))
    (kept : batch.filter keep = result) :
    ((if indices.isEmpty then none else some (gather batch indices)).getD []).Perm result := by
  have same := (gather_perm keep positions).trans (.of_eq kept)
  split
  · rename_i empty
    rw [List.isEmpty_iff.mp empty] at same
    exact same
  · exact same

/-- With a residual predicate the mixed joins select the rows. -/
theorem semiAnti_probes_residual {rows : DeviceBatch rightWidth} {predicate : Expression}
    (residual : operator.residualPredicate = some predicate) (hashJoin : Option HashTable)
    (batch : DeviceBatch leftWidth) :
    ∃ output, operator.probeOneBatch cudf ⟨some rows, hashJoin, false⟩ batch = .ok output ∧
      (output.getD []).Perm (semiAntiRows cudf operator batch rows) := by
  have found (index : Nat) : (matchIndices cudf.keyEqual .equal
      (rows.map (fun row => row.get operator.rightKeyIndex))
      ((batch.map (fun row => row.get operator.leftKeyIndex)).getD index .null)).any (fun other =>
        residualHolds predicate (batch.getD index (nullRow leftWidth)) (rows.getD other (nullRow rightWidth))) =
      rows.any (residualRowsMatch cudf operator (batch.getD index (nullRow leftWidth))) := by
    rw [getD_keys, any_matchIndices cudf rows _ operator.leftKeyIndex operator.rightKeyIndex
      (residualHolds predicate (batch.getD index (nullRow leftWidth)))]
    refine congrArg rows.any (funext fun row => ?_)
    simp only [residualRowsMatch, residual, Option.all_some]
  simp only [SemiAntiJoinOperator.probeOneBatch, residual]
  by_cases semi : operator.joinType = .leftSemi
  · have notAnti : ¬ operator.joinType = .leftAnti := by rw [semi]; decide
    have positions := cudf.mixedLeftSemiJoin_perm .equal
      (batch.map (fun row => row.get operator.leftKeyIndex))
      (rows.map (fun row => row.get operator.rightKeyIndex)) (fun left right =>
        residualHolds predicate (batch.getD left (nullRow leftWidth)) (rows.getD right (nullRow rightWidth)))
    simp only [found, List.length_map] at positions
    rw [if_pos semi]
    refine ⟨_, ?_, gathered_perm (fun row => rows.any (residualRowsMatch cudf operator row)) positions ?_⟩
    · split <;> rfl
    · rw [semiAntiRows, if_neg notAnti, semiJoin]
  · have anti : operator.joinType = .leftAnti := operator.semiOrAnti.resolve_left semi
    have positions := cudf.mixedLeftAntiJoin_perm .equal
      (batch.map (fun row => row.get operator.leftKeyIndex))
      (rows.map (fun row => row.get operator.rightKeyIndex)) (fun left right =>
        residualHolds predicate (batch.getD left (nullRow leftWidth)) (rows.getD right (nullRow rightWidth)))
    simp only [found, List.length_map] at positions
    rw [if_neg semi]
    refine ⟨_, ?_, gathered_perm (fun row => !rows.any (residualRowsMatch cudf operator row)) positions ?_⟩
    · split <;> rfl
    · rw [semiAntiRows, if_pos anti, antiJoin]

/-- Without one, the equality joins do. -/
theorem semiAnti_probes_keys {rows : DeviceBatch rightWidth} (residual : operator.residualPredicate = none)
    (batch : DeviceBatch leftWidth) :
    ∃ output, operator.probeOneBatch cudf
        ⟨some rows, some ⟨rows.map (fun row => row.get operator.rightKeyIndex), .equal⟩, false⟩ batch =
          .ok output ∧
      (output.getD []).Perm (semiAntiRows cudf operator batch rows) := by
  have rowsMatch : residualRowsMatch cudf operator =
      keyRowsMatch cudf operator.leftKeyIndex operator.rightKeyIndex := by
    funext left right
    simp [residualRowsMatch, residual]
  have found (index : Nat) : (matchIndices cudf.keyEqual .equal
      (rows.map (fun row => row.get operator.rightKeyIndex))
      ((batch.map (fun row => row.get operator.leftKeyIndex)).getD index .null)).isEmpty =
      !rows.any (residualRowsMatch cudf operator (batch.getD index (nullRow leftWidth))) := by
    rw [getD_keys, isEmpty_matchIndices, rowsMatch]
  simp only [SemiAntiJoinOperator.probeOneBatch, residual]
  by_cases semi : operator.joinType = .leftSemi
  · have notAnti : ¬ operator.joinType = .leftAnti := by rw [semi]; decide
    have positions := distinct_inner_positions cudf (rows.map (fun row => row.get operator.rightKeyIndex))
      (batch.map (fun row => row.get operator.leftKeyIndex))
    simp only [found, Bool.not_not, List.length_map] at positions
    have same := gather_perm (fun row => rows.any (residualRowsMatch cudf operator row)) positions
    rw [if_pos semi, semiAntiRows, if_neg notAnti, semiJoin]
    split
    · rename_i empty
      have nothing : cudf.distinctIndices [] = [] := List.perm_nil.mp (cudf.distinctIndices_perm [])
      rw [List.isEmpty_iff.mp empty, nothing] at same
      exact ⟨none, rfl, same⟩
    · exact ⟨_, rfl, same⟩
  · have anti : operator.joinType = .leftAnti := operator.semiOrAnti.resolve_left semi
    have positions := unmatched_left_positions cudf (rows.map (fun row => row.get operator.rightKeyIndex))
      (batch.map (fun row => row.get operator.leftKeyIndex))
    simp only [found, List.length_map] at positions
    rw [if_neg semi]
    refine ⟨_, ?_, gathered_perm (fun row => !rows.any (residualRowsMatch cudf operator row)) positions ?_⟩
    · split
      · rename_i none
        rw [List.isEmpty_iff.mp none]
        rfl
      · split <;> rfl
    · rw [semiAntiRows, if_pos anti, antiJoin]

theorem semiAnti_implements : Implements (operator.behaviour cudf) (residualRowsMatch cudf operator)
    (finishSemiAnti operator.joinType) where
  orderless row first second same := by
    rw [finishSemiAnti, finishSemiAnti, same.isEmpty_eq]
  unmatched drops row := by
    change (operator.joinType == .leftAnti) = false at drops
    rw [finishSemiAnti, drops]
    rfl
  passes keeps batch := by
    change (operator.joinType == .leftAnti) = true at keeps
    rw [joinRows_semiAnti, semiAntiRows, if_pos (by simpa using keeps), antiJoin]
    refine .of_eq ?_
    simp [SemiAntiJoinOperator.behaviour]
  buildsNone := rfl
  buildsEmpty := rfl
  builds rows some_rows := by
    change (operator.buildHashJoin (some rows)).rightIsEmpty = false
    rw [semiAnti_buildHashJoin_rows operator some_rows]
  probes rows some_rows batch := by
    change ∃ output, operator.probeOneBatch cudf (operator.buildHashJoin (some rows)) batch = .ok output ∧ _
    rw [joinRows_semiAnti, semiAnti_buildHashJoin_rows operator some_rows]
    cases residual : operator.residualPredicate with
    | some predicate => exact semiAnti_probes_residual cudf operator residual _ batch
    | none => exact semiAnti_probes_keys cudf operator residual batch

theorem semiAntiJoin_drains (left : List (DeviceBatch leftWidth)) (right : List (DeviceBatch rightWidth)) :
    ∃ enough, ∀ fuel, enough ≤ fuel → ∃ batches,
      drain (operator.next cudf (operator.openOperator cudf left right).1) fuel
          (operator.openOperator cudf left right).2 = some batches ∧
        batches.flatten.Perm (semiAntiRows cudf operator left.flatten right.flatten) := by
  have together : ∀ count row other, residualRowsMatch cudf operator row other = true →
      rowBucket cudf operator.leftKeyIndex count row = rowBucket cudf operator.rightKeyIndex count other :=
    fun count row other same => keyRowsMatch_bucket cudf _ _ count row other (Bool.and_eq_true_iff.mp same).1
  rw [← joinRows_semiAnti]
  exact drain_openJoin (semiAnti_implements cudf operator) cudf operator.leftKeyIndex
    operator.rightKeyIndex together operator.partitionCount left right

/-- A spilled semi or anti join returns the rows of the one in memory, whatever the batches and the
number of buckets: both return the left rows that have a match, or those that have none. -/
theorem semiAntiJoin_spilled (left : List (DeviceBatch leftWidth)) (right : List (DeviceBatch rightWidth)) :
    ∃ enough, ∀ more, ∃ spilled whole,
      drain (operator.next cudf (operator.openOperator cudf left right).1) (enough + more)
          (operator.openOperator cudf left right).2 = some spilled ∧
        drain ({ operator with partitionCount := 1 }.next cudf
            ({ operator with partitionCount := 1 }.openOperator cudf left right).1) (enough + more)
          ({ operator with partitionCount := 1 }.openOperator cudf left right).2 = some whole ∧
        spilled.flatten.Perm whole.flatten ∧
        whole.flatten.Perm (semiAntiRows cudf operator left.flatten right.flatten) := by
  obtain ⟨enough, runs⟩ := semiAntiJoin_drains cudf operator left right
  obtain ⟨enough', runs'⟩ := semiAntiJoin_drains cudf { operator with partitionCount := 1 } left right
  refine ⟨enough + enough', fun more => ?_⟩
  obtain ⟨spilled, drained, rows⟩ := runs (enough + enough' + more) (by omega)
  obtain ⟨whole, drained', rows'⟩ := runs' (enough + enough' + more) (by omega)
  exact ⟨spilled, whole, drained, drained', rows.trans rows'.symm, rows'⟩

end SemiAntiJoin

end KernelLake.GpuJoinProofs
