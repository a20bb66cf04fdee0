import KernelLake.GpuJoins
import KernelLake.Library.Interleavings

/-!
How often the joins read a build bucket back from disk.

A bucket is loaded before its first probe batch, unless it is remembered as built. `next` may return in the
middle of a bucket; the following call then comes to the same bucket again. The hash join remembers what it has
loaded. The semi and anti joins forget it, so they load a bucket once more for every call that begins inside it.
-/

namespace KernelLake.GpuJoinLoads

open KernelLake.GpuJoins KernelLake.Library.Interleavings

variable {leftWidth rightWidth outputWidth : Nat}

section Loads

variable (behaviour : JoinBehaviour leftWidth rightWidth outputWidth) (opened : Opened leftWidth rightWidth)

/-! ## What a call loads -/

/-- What `ensurePartitionBuilt` reads back. -/
def ensureLoads (state : JoinState leftWidth rightWidth) : List Nat :=
  if state.currentPartitionBuilt then []
  else if !opened.build.nonempty state.currentPartition then []
  else [state.currentPartition]

/-- What `probeBucket` reads back of the build side. -/
def bucketLoads (state : JoinState leftWidth rightWidth) : List Nat :=
  let bucket := state.currentPartition
  let hasOrphanProbeRows := behaviour.keepsUnmatched && !opened.build.nonempty bucket
  if opened.probe.nonempty bucket && (opened.build.nonempty bucket || hasOrphanProbeRows) then
    ensureLoads opened state
  else []

def walkLoads : Nat → JoinState leftWidth rightWidth → List Nat
  | 0, _ => []
  | remaining + 1, state =>
    bucketLoads behaviour opened state ++
      match probeBucket behaviour opened state with
      | .error _ => []
      | .ok (some _, _) => []
      | .ok (none, state) => walkLoads remaining (nextPartition state)

/-- The buckets that a call of `next` loads, in order. -/
def nextLoads (state : JoinState leftWidth rightWidth) : List Nat :=
  if opened.partitionCount ≤ 1 then []
  else walkLoads behaviour opened (opened.partitionCount - state.currentPartition) state

/-- A join whose `next` is called any number of times, with the buckets loaded so far. A call is labelled with
the state that it begins in. -/
def calls (start : JoinState leftWidth rightWidth) :
    System (JoinState leftWidth rightWidth × List Nat) (JoinState leftWidth rightWidth) where
  initial state := state = (start, [])
  step state before state' :=
    before = state.1 ∧ (∃ output, nextBatch behaviour opened state.1 = .ok (output, state'.1)) ∧
      state'.2 = state.2 ++ nextLoads behaviour opened state.1

/-! ## What has been loaded -/

/-- The probe file of a bucket with build rows is open: the bucket has been loaded. -/
def InsideLoaded (state : JoinState leftWidth rightWidth) : Prop :=
  state.probeReader.isSome = true ∧ opened.build.nonempty state.currentPartition = true

/-- Whether the bucket a call begins in is not loaded again. -/
def Spared (state : JoinState leftWidth rightWidth) : Prop :=
  behaviour.marksBuilt = true ∨ ¬ InsideLoaded opened state

/-- What has been loaded at a time when no call is in progress, or when a call comes to a bucket. -/
structure Accounted (state : JoinState leftWidth rightWidth) (loads : List Nat) : Prop where
  below : ∀ bucket ∈ loads, bucket ≤ state.currentPartition
  inside : state.currentPartition ∈ loads ↔ InsideLoaded opened state
  marked : state.currentPartition ∈ loads → state.currentPartitionBuilt = behaviour.marksBuilt
  built : state.currentPartitionBuilt = true → opened.build.nonempty state.currentPartition = true →
    state.currentPartition ∈ loads
  reading : state.probeReader.isSome = true →
    state.currentPartition < opened.partitionCount ∧ opened.probe.nonempty state.currentPartition = true

end Loads

section Calls

variable {behaviour : JoinBehaviour leftWidth rightWidth outputWidth} {opened : Opened leftWidth rightWidth}
  {state state' : JoinState leftWidth rightWidth} {loads : List Nat}

theorem bucketLoads_eq : bucketLoads behaviour opened state =
    if opened.probe.nonempty state.currentPartition = true ∧ opened.build.nonempty state.currentPartition = true ∧
      state.currentPartitionBuilt = false then [state.currentPartition] else [] := by
  unfold bucketLoads ensureLoads
  cases probe : opened.probe.nonempty state.currentPartition <;>
    cases build : opened.build.nonempty state.currentPartition <;>
      cases built : state.currentPartitionBuilt <;> simp [probe, build]

theorem bucketLoads_le : ∀ bucket ∈ bucketLoads behaviour opened state, bucket ≤ state.currentPartition := by
  intro bucket member
  rw [bucketLoads_eq] at member
  split at member
  · exact Nat.le_of_eq (List.mem_singleton.mp member)
  · exact absurd member List.not_mem_nil

/-- A bucket is loaded a second time exactly where it is not spared. -/
theorem nodup_bucketLoads (accounted : Accounted behaviour opened state loads) :
    (loads ++ bucketLoads behaviour opened state).Nodup ↔ loads.Nodup ∧ Spared behaviour opened state := by
  rw [bucketLoads_eq]
  split
  · rename_i loaded
    obtain ⟨_, buildRows, unbuilt⟩ := loaded
    rw [← List.concat_eq_append, List.nodup_concat, and_comm]
    refine and_congr_right (fun _ => ?_)
    rw [accounted.inside, Spared]
    refine ⟨Or.inr, fun spared insideLoaded => ?_⟩
    have marked := accounted.marked (accounted.inside.mpr insideLoaded)
    rw [unbuilt] at marked
    exact spared.elim (fun marks => Bool.false_ne_true (marked.trans marks)) (fun outside => outside insideLoaded)
  · rename_i notLoaded
    rw [List.append_nil]
    refine (and_iff_left ?_).symm
    by_contra unspared
    obtain ⟨unmarked, insideLoaded⟩ := not_or.mp unspared
    have insideLoaded := not_not.mp insideLoaded
    have marked := accounted.marked (accounted.inside.mpr insideLoaded)
    refine notLoaded ⟨(accounted.reading insideLoaded.1).2, insideLoaded.2, ?_⟩
    rw [marked]
    exact Bool.eq_false_iff.mpr unmarked

theorem ensurePartitionBuilt_keeps (opened : Opened leftWidth rightWidth) (state : JoinState leftWidth rightWidth) :
    (ensurePartitionBuilt behaviour opened state).currentPartition = state.currentPartition ∧
      (ensurePartitionBuilt behaviour opened state).currentPartitionBuilt =
        (state.currentPartitionBuilt || !opened.build.nonempty state.currentPartition || behaviour.marksBuilt) := by
  unfold ensurePartitionBuilt
  cases built : state.currentPartitionBuilt <;>
    cases build : opened.build.nonempty state.currentPartition <;> simp [built]

/-- What one look at a bucket leaves: the same bucket, and if it hands out a batch, its open file. -/
theorem probeBucket_cases {output : Option (DeviceBatch outputWidth)}
    (ran : probeBucket behaviour opened state = .ok (output, state')) :
    state'.currentPartition = state.currentPartition ∧ (output.isSome = true →
      opened.probe.nonempty state.currentPartition = true ∧ state'.probeReader.isSome = true ∧
        state'.currentPartitionBuilt =
          (state.currentPartitionBuilt || !opened.build.nonempty state.currentPartition || behaviour.marksBuilt)) := by
  obtain ⟨samePartition, built⟩ := @ensurePartitionBuilt_keeps _ _ _ behaviour opened state
  unfold probeBucket at ran
  simp only at ran
  split at ran
  · rename_i probed
    obtain ⟨probeRows, _⟩ := Bool.and_eq_true_iff.mp probed
    split at ran
    · split at ran
      · cases ran
      · obtain ⟨rfl, rfl⟩ := Prod.mk.inj (Except.ok.inj ran)
        exact ⟨samePartition, fun _ => ⟨probeRows, rfl, built⟩⟩
    · obtain ⟨rfl, rfl⟩ := Prod.mk.inj (Except.ok.inj ran)
      exact ⟨samePartition, fun some => absurd some Bool.false_ne_true⟩
  · obtain ⟨rfl, rfl⟩ := Prod.mk.inj (Except.ok.inj ran)
    exact ⟨rfl, fun some => absurd some Bool.false_ne_true⟩

/-- The bucket after the current one is new. -/
theorem accounted_nextPartition (below : ∀ bucket ∈ loads, bucket ≤ state.currentPartition) :
    Accounted behaviour opened (nextPartition state) loads := by
  have unseen : (nextPartition state).currentPartition ∉ loads := fun member =>
    absurd (below _ member) (Nat.not_succ_le_self state.currentPartition)
  refine ⟨fun bucket member => Nat.le_succ_of_le (below bucket member), ⟨fun member => absurd member unseen, ?_⟩,
    fun member => absurd member unseen, fun built => absurd built Bool.false_ne_true,
    fun reading => absurd reading Bool.false_ne_true⟩
  exact fun insideLoaded => absurd insideLoaded.1 Bool.false_ne_true

/-- A call that returns in the middle of a bucket has loaded it if it has build rows. -/
theorem accounted_probeBucket (accounted : Accounted behaviour opened state loads)
    (within : state.currentPartition < opened.partitionCount) {output : DeviceBatch outputWidth}
    (ran : probeBucket behaviour opened state = .ok (some output, state')) :
    Accounted behaviour opened state' (loads ++ bucketLoads behaviour opened state) := by
  obtain ⟨samePartition, left⟩ := probeBucket_cases ran
  obtain ⟨probeRows, reading, built⟩ := left rfl
  have loaded : state.currentPartition ∈ loads ++ bucketLoads behaviour opened state ↔
      opened.build.nonempty state.currentPartition = true := by
    rw [List.mem_append, bucketLoads_eq]
    constructor
    · rintro (before | now)
      · exact (accounted.inside.mp before).2
      · split at now
        · rename_i isLoaded
          exact isLoaded.2.1
        · exact absurd now List.not_mem_nil
    · intro buildRows
      cases alreadyBuilt : state.currentPartitionBuilt with
      | true => exact .inl (accounted.built alreadyBuilt buildRows)
      | false => exact .inr (by rw [if_pos ⟨probeRows, buildRows, rfl⟩]; exact List.mem_singleton_self _)
  have marked : opened.build.nonempty state.currentPartition = true →
      state'.currentPartitionBuilt = behaviour.marksBuilt := by
    intro buildRows
    rw [built, buildRows, Bool.not_true, Bool.or_false]
    cases alreadyBuilt : state.currentPartitionBuilt with
    | false => rfl
    | true => rw [← accounted.marked (accounted.built alreadyBuilt buildRows), alreadyBuilt, Bool.or_self]
  refine ⟨fun bucket member => ?_, ?_, ?_, ?_, ?_⟩
  · rw [samePartition]
    exact (List.mem_append.mp member).elim (accounted.below bucket) (bucketLoads_le bucket)
  · rw [InsideLoaded, samePartition, loaded]
    exact (and_iff_right reading).symm
  · rw [samePartition, loaded]
    exact marked
  · rw [samePartition, loaded]
    exact fun _ buildRows => buildRows
  · rw [samePartition]
    exact fun _ => ⟨within, probeRows⟩

/-- A call loads no bucket twice of those it comes to, except for the one it begins in. -/
theorem accounted_walkPartitions (remaining : Nat) (accounted : Accounted behaviour opened state loads)
    (counted : remaining = opened.partitionCount - state.currentPartition)
    {output : Option (DeviceBatch outputWidth)}
    (ran : walkPartitions behaviour opened remaining state = .ok (output, state')) :
    Accounted behaviour opened state' (loads ++ walkLoads behaviour opened remaining state) ∧
      ((loads ++ walkLoads behaviour opened remaining state).Nodup ↔
        loads.Nodup ∧ Spared behaviour opened state) := by
  induction remaining generalizing state loads with
  | zero =>
    obtain ⟨rfl, rfl⟩ := Prod.mk.inj (Except.ok.inj ran)
    rw [walkLoads, List.append_nil]
    refine ⟨accounted, (and_iff_left (.inr (fun insideLoaded => ?_))).symm⟩
    have within := (accounted.reading insideLoaded.1).1
    omega
  | succ remaining hypothesis =>
    have within : state.currentPartition < opened.partitionCount := by omega
    rw [walkPartitions] at ran
    rw [walkLoads]
    cases probed : probeBucket behaviour opened state with
    | error fault =>
      rw [probed] at ran
      cases ran
    | ok result =>
      obtain ⟨handedOut, middle⟩ := result
      rw [probed] at ran
      cases handedOut with
      | some batch =>
        obtain ⟨rfl, rfl⟩ := Prod.mk.inj (Except.ok.inj ran)
        simp only [List.append_nil]
        exact ⟨accounted_probeBucket accounted within probed, nodup_bucketLoads accounted⟩
      | none =>
        have samePartition := (probeBucket_cases probed).1
        have next : Accounted behaviour opened (nextPartition middle)
            (loads ++ bucketLoads behaviour opened state) := by
          refine accounted_nextPartition (fun bucket member => ?_)
          rw [samePartition]
          exact (List.mem_append.mp member).elim (accounted.below bucket) (bucketLoads_le bucket)
        have start : Spared behaviour opened (nextPartition middle) :=
          .inr (fun insideLoaded => Bool.false_ne_true insideLoaded.1)
        have bucket : (nextPartition middle).currentPartition = state.currentPartition + 1 :=
          congrArg (· + 1) samePartition
        have counted : remaining = opened.partitionCount - (nextPartition middle).currentPartition := by
          rw [bucket]
          omega
        obtain ⟨walked, distinct⟩ := hypothesis next counted ran
        simp only [← List.append_assoc]
        exact ⟨walked, distinct.trans ((and_iff_left start).trans (nodup_bucketLoads accounted))⟩

/-! ## Every run -/

/-- What holds after any number of calls: everything is accounted for, and nothing was loaded twice exactly if
every call found the bucket it began in spared. -/
theorem accounted_calls (partitioned : 1 < opened.partitionCount) {start : JoinState leftWidth rightWidth}
    (fresh : Accounted behaviour opened start []) {trace : List (JoinState leftWidth rightWidth)}
    {after : JoinState leftWidth rightWidth × List Nat} (run : Run (calls behaviour opened start) trace after) :
    Accounted behaviour opened after.1 after.2 ∧
      (after.2.Nodup ↔ ∀ before ∈ trace, Spared behaviour opened before) := by
  induction run with
  | start initial =>
    obtain rfl := initial
    exact ⟨fresh, iff_of_true List.nodup_nil (List.forall_mem_nil _)⟩
  | next run step hypothesis =>
    obtain ⟨rfl, ⟨output, ran⟩, loaded⟩ := step
    obtain ⟨accounted, distinct⟩ := hypothesis
    rw [nextBatch, if_neg (Nat.not_le_of_lt partitioned)] at ran
    rw [nextLoads, if_neg (Nat.not_le_of_lt partitioned)] at loaded
    obtain ⟨walked, nodup⟩ := accounted_walkPartitions _ accounted rfl ran
    rw [loaded, List.forall_mem_cons]
    exact ⟨walked, nodup.trans ((and_congr_left' distinct).trans and_comm)⟩

theorem accounted_openJoin (behaviour : JoinBehaviour leftWidth rightWidth outputWidth) (cudf : CudfJoin)
    (leftKeyIndex : Fin leftWidth) (rightKeyIndex : Fin rightWidth) {partitionCount : Nat}
    (partitioned : 1 < partitionCount) (left : List (DeviceBatch leftWidth)) (right : List (DeviceBatch rightWidth)) :
    let start := openJoin behaviour cudf leftKeyIndex rightKeyIndex partitionCount left right
    1 < start.1.partitionCount ∧ Accounted behaviour start.1 start.2 [] := by
  have notZero : partitionCount ≠ 0 := by omega
  have many : ¬ partitionCount ≤ 1 := by omega
  simp only [openJoin, if_neg notZero, if_neg many]
  refine ⟨partitioned, List.forall_mem_nil _, ⟨fun member => absurd member List.not_mem_nil, ?_⟩,
    fun member => absurd member List.not_mem_nil, fun built => absurd built Bool.false_ne_true,
    fun reading => absurd reading Bool.false_ne_true⟩
  exact fun insideLoaded => absurd insideLoaded.1 Bool.false_ne_true

/-- A hash join from its opening on. -/
def hashJoinCalls (cudf : CudfJoin) (operator : HashJoinOperator leftWidth rightWidth)
    (left : List (DeviceBatch leftWidth)) (right : List (DeviceBatch rightWidth)) :
    System (JoinState leftWidth rightWidth × List Nat) (JoinState leftWidth rightWidth) :=
  calls (operator.behaviour cudf) (operator.openOperator cudf left right).1
    (operator.openOperator cudf left right).2

/-- A semi or anti join from its opening on. -/
def semiAntiJoinCalls (cudf : CudfJoin) (operator : SemiAntiJoinOperator leftWidth rightWidth)
    (left : List (DeviceBatch leftWidth)) (right : List (DeviceBatch rightWidth)) :
    System (JoinState leftWidth rightWidth × List Nat) (JoinState leftWidth rightWidth) :=
  calls (operator.behaviour cudf) (operator.openOperator cudf left right).1
    (operator.openOperator cudf left right).2

/-- A partitioned hash join loads each bucket at most once. A partitioned semi or anti join does exactly if no
call begins inside a bucket that was loaded. -/
theorem buckets_loaded_once_iff (cudf : CudfJoin) (hashJoin : HashJoinOperator leftWidth rightWidth)
    (semiAntiJoin : SemiAntiJoinOperator leftWidth rightWidth) (left : List (DeviceBatch leftWidth))
    (right : List (DeviceBatch rightWidth)) :
    (1 < hashJoin.partitionCount → ∀ trace state loads,
      Run (hashJoinCalls cudf hashJoin left right) trace (state, loads) → loads.Nodup) ∧
    (1 < semiAntiJoin.partitionCount → ∀ trace state loads,
      Run (semiAntiJoinCalls cudf semiAntiJoin left right) trace (state, loads) →
        (loads.Nodup ↔
          ∀ before ∈ trace, ¬ InsideLoaded (semiAntiJoin.openOperator cudf left right).1 before)) := by
  constructor
  · intro partitioned trace state loads run
    obtain ⟨many, fresh⟩ := accounted_openJoin (hashJoin.behaviour cudf) cudf hashJoin.leftKeyIndex
      hashJoin.rightKeyIndex partitioned left right
    exact (accounted_calls many fresh run).2.mpr (fun _ _ => .inl rfl)
  · intro partitioned trace state loads run
    obtain ⟨many, fresh⟩ := accounted_openJoin (semiAntiJoin.behaviour cudf) cudf semiAntiJoin.leftKeyIndex
      semiAntiJoin.rightKeyIndex partitioned left right
    refine (accounted_calls many fresh run).2.trans (forall₂_congr (fun before _ => ?_))
    exact or_iff_right Bool.false_ne_true

end Calls

/-! ## Two probe batches in one bucket -/

/-- A hash join on the first column with two buckets. -/
def bucketedHashJoin : HashJoinOperator 1 1 where
  leftKeyIndex := 0
  rightKeyIndex := 0
  partitionCount := 2
  joinType := .inner

def bucketedSemiJoin : SemiAntiJoinOperator 1 1 where
  leftKeyIndex := 0
  rightKeyIndex := 0
  partitionCount := 2
  joinType := .leftSemi
  residualPredicate := none
  semiOrAnti := .inl rfl

def oneBatch : List (DeviceBatch 1) := [[#v[.int 1]]]

/-- Two batches, one row each, whose keys are in the same bucket. -/
def twoBatches : List (DeviceBatch 1) := [[#v[.int 1]], [#v[.int 1]]]

theorem buckets_loaded_once_iff_one_batch :
    (∀ trace state loads,
      Run (hashJoinCalls .nestedLoop bucketedHashJoin twoBatches oneBatch) trace (state, loads) → loads.Nodup) ∧
    ∃ state, Run (semiAntiJoinCalls .nestedLoop bucketedSemiJoin oneBatch oneBatch)
        [(bucketedSemiJoin.openOperator .nestedLoop oneBatch oneBatch).2] (state, [1]) ∧ [1].Nodup := by
  have hashOnce := (buckets_loaded_once_iff .nestedLoop bucketedHashJoin bucketedSemiJoin twoBatches oneBatch).1
  have once := (buckets_loaded_once_iff .nestedLoop bucketedHashJoin bucketedSemiJoin oneBatch oneBatch).2
  have run : Run (semiAntiJoinCalls .nestedLoop bucketedSemiJoin oneBatch oneBatch)
      [(bucketedSemiJoin.openOperator .nestedLoop oneBatch oneBatch).2] (_, [1]) :=
    .next (.start rfl) ⟨rfl, ⟨_, rfl⟩, rfl⟩
  refine ⟨hashOnce (by decide), _, run, (once (by decide) _ _ _ run).mpr ?_⟩
  exact List.forall_mem_singleton.mpr (fun insideLoaded => Bool.false_ne_true insideLoaded.1)

/-- A semi join loads the bucket of two matching probe batches for each of them. -/
theorem bucket_loaded_twice : ¬ ∀ (cudf : CudfJoin) (semiAntiJoin : SemiAntiJoinOperator 1 1)
    (left right : List (DeviceBatch 1)), 1 < semiAntiJoin.partitionCount → ∀ trace state loads,
      Run (semiAntiJoinCalls cudf semiAntiJoin left right) trace (state, loads) → loads.Nodup := by
  intro once
  have first : Run (semiAntiJoinCalls .nestedLoop bucketedSemiJoin twoBatches oneBatch) _ (_, [1]) :=
    .next (.start rfl) ⟨rfl, ⟨_, rfl⟩, rfl⟩
  have second : Run (semiAntiJoinCalls .nestedLoop bucketedSemiJoin twoBatches oneBatch) _ (_, [1, 1]) :=
    .next first ⟨rfl, ⟨_, rfl⟩, rfl⟩
  exact absurd (once .nestedLoop bucketedSemiJoin twoBatches oneBatch (by decide) _ _ _ second) (by decide)

end KernelLake.GpuJoinLoads
