import KernelLake.Evaluation
import KernelLake.Library.PartitionedJoins
import KernelLake.Library.Pulling
import KernelLake.Library.Relations
import KernelLake.LogicalPlans
import Mathlib.Logic.Function.Basic

/-!
The join operators of the GPU backend.

Both operators build on the right side and probe with the left one. A build side that fits is held
as one table; otherwise both sides are cut into buckets by a hash of their keys, spilled to disk,
and joined one bucket at a time. `next` may return in the middle of a bucket and resumes there.

The two operators share this machine and differ in what a probe does, in whether a row without a
match is a result, and in one step of the machine, so the machine takes these as a `JoinBehaviour`.
The join primitives of the library are a parameter: `CudfJoin` holds them together with their
documented contracts, which leave the order of their results open. A missing table that is used all
the same is a `Fault`.
-/

namespace KernelLake.GpuJoins

open KernelLake.Types KernelLake.Expressions KernelLake.Evaluation KernelLake.LogicalPlans
open KernelLake.Library.Relations KernelLake.Library.PartitionedJoins

abbrev DeviceBatch (width : Nat) := List (Vector Value width)

def nullRow (width : Nat) : Vector Value width :=
  .replicate width .null

/-! ## Library primitives -/

/-- Whether two null keys are taken for equal. -/
inductive NullEquality
  | equal | unequal
  deriving DecidableEq

def keysMatch (keyEqual : Value → Value → Bool) (nulls : NullEquality) (left right : Value) : Bool :=
  match left, right with
  | .null, .null => nulls == .equal
  | .null, _ => false
  | _, .null => false
  | left, right => keyEqual left right

/-- The positions of the build keys that match one probe key. -/
def matchIndices (keyEqual : Value → Value → Bool) (nulls : NullEquality) (build : List Value)
    (key : Value) : List Nat :=
  (List.range build.length).filter (fun index => keysMatch keyEqual nulls key (build.getD index .null))

/-- Joins of two key columns, as lists of row positions. A left row without a match is paired with
nothing by the left join, and a mixed join asks for a condition on the two rows as well. A hash
partition is an order of the rows and the offset of each bucket in it. -/
structure CudfJoin where
  keyEqual : Value → Value → Bool
  innerJoin : NullEquality → List Value → List Value → List (Nat × Nat)
  leftJoin : NullEquality → List Value → List Value → List (Nat × Option Nat)
  mixedLeftSemiJoin : NullEquality → List Value → List Value → (Nat → Nat → Bool) → List Nat
  mixedLeftAntiJoin : NullEquality → List Value → List Value → (Nat → Nat → Bool) → List Nat
  distinctIndices : List Nat → List Nat
  bucketOf : Nat → Value → Nat
  hashPartition : Nat → List Value → List Nat × List Nat
  innerJoin_perm : ∀ nulls build probe, (innerJoin nulls build probe).Perm
    ((List.range probe.length).flatMap (fun index =>
      (matchIndices keyEqual nulls build (probe.getD index .null)).map (Prod.mk index)))
  leftJoin_perm : ∀ nulls build probe, (leftJoin nulls build probe).Perm
    ((List.range probe.length).flatMap (fun index =>
      if matchIndices keyEqual nulls build (probe.getD index .null) = [] then [(index, none)]
      else (matchIndices keyEqual nulls build (probe.getD index .null)).map
        (fun other => (index, some other))))
  mixedLeftSemiJoin_perm : ∀ nulls left right condition, (mixedLeftSemiJoin nulls left right condition).Perm
    ((List.range left.length).filter (fun index =>
      (matchIndices keyEqual nulls right (left.getD index .null)).any (condition index)))
  mixedLeftAntiJoin_perm : ∀ nulls left right condition, (mixedLeftAntiJoin nulls left right condition).Perm
    ((List.range left.length).filter (fun index =>
      !(matchIndices keyEqual nulls right (left.getD index .null)).any (condition index)))
  distinctIndices_perm : ∀ indices, (distinctIndices indices).Perm (distinct indices)
  bucketOf_lt : ∀ {count}, 0 < count → ∀ key, bucketOf count key < count
  bucketOf_equal : ∀ {left right}, keyEqual left right = true →
    ∀ count, bucketOf count left = bucketOf count right
  hashPartition_length : ∀ {count}, 0 < count → ∀ keys, (hashPartition count keys).1.length = keys.length
  hashPartition_offsets : ∀ {count}, 0 < count → ∀ keys, ∀ index < count,
    (hashPartition count keys).2.getD index 0 ≤ (hashPartition count keys).2.getD (index + 1) 0 ∧
      (hashPartition count keys).2.getD (index + 1) 0 ≤ keys.length
  hashPartition_slice : ∀ {count}, 0 < count → ∀ keys, ∀ index < count,
    (((hashPartition count keys).1.drop ((hashPartition count keys).2.getD index 0)).take
        ((hashPartition count keys).2.getD (index + 1) 0 - (hashPartition count keys).2.getD index 0)).Perm
      ((List.range keys.length).filter (fun row => bucketOf count (keys.getD row .null) = index))

/-- The bucket of a key in `CudfJoin.nestedLoop`: integers by their remainder. -/
def remainderBucket (count : Nat) : Value → Nat
  | .int value => (value % (count : Int)).toNat
  | _ => 0

def bucketPositions (count : Nat) (keys : List Value) (bucket : Nat) : List Nat :=
  (List.range keys.length).filter (fun row => remainderBucket count (keys.getD row .null) = bucket)

/-- The positions of the first buckets, bucket after bucket. -/
def bucketOrder (count : Nat) (keys : List Value) (buckets : Nat) : List Nat :=
  (List.range buckets).flatMap (bucketPositions count keys)

/-- The first position of each bucket, and the end. -/
def bucketOffsets (count : Nat) (keys : List Value) : List Nat :=
  (List.range (count + 1)).map (fun bucket => (bucketOrder count keys bucket).length)

theorem remainderBucket_lt {count : Nat} (positive : 0 < count) (key : Value) :
    remainderBucket count key < count := by
  cases key with
  | int value =>
    have below := Int.emod_lt_of_pos value (Int.natCast_pos.mpr positive)
    have above := Int.emod_nonneg value (Int.natCast_ne_zero.mpr (Nat.pos_iff_ne_zero.mp positive))
    simp only [remainderBucket]
    omega
  | _ => exact positive

theorem bucketOrder_succ (count : Nat) (keys : List Value) (bucket : Nat) :
    bucketOrder count keys (bucket + 1) = bucketOrder count keys bucket ++ bucketPositions count keys bucket := by
  rw [bucketOrder, List.range_succ, List.flatMap_append, List.flatMap_singleton]
  rfl

theorem bucketOrder_split (count : Nat) (keys : List Value) {bucket buckets : Nat} (inside : bucket ≤ buckets) :
    ∃ after, bucketOrder count keys buckets = bucketOrder count keys bucket ++ after := by
  induction inside with
  | refl => exact ⟨[], (List.append_nil _).symm⟩
  | @step buckets _ hypothesis =>
    obtain ⟨after, same⟩ := hypothesis
    exact ⟨after ++ bucketPositions count keys buckets, by rw [bucketOrder_succ, same, List.append_assoc]⟩

theorem length_bucketOrder {count : Nat} (positive : 0 < count) (keys : List Value) :
    (bucketOrder count keys count).length = keys.length := by
  have all := flatMap_buckets_perm (fun row => remainderBucket count (keys.getD row .null)) count
    (List.range keys.length) (fun row _ => remainderBucket_lt positive _)
  rw [← List.length_range (n := keys.length), all.length_eq]
  rfl

theorem getD_bucketOffsets (count : Nat) (keys : List Value) {bucket : Nat} (inside : bucket ≤ count) :
    (bucketOffsets count keys).getD bucket 0 = (bucketOrder count keys bucket).length := by
  simp [bucketOffsets, List.getD_eq_getElem?_getD, Nat.lt_succ_of_le inside]

/-- Joins by nested loops, and buckets one after the other. -/
def CudfJoin.nestedLoop : CudfJoin where
  keyEqual left right := left == right
  innerJoin nulls build probe := (List.range probe.length).flatMap (fun index =>
    (matchIndices (fun left right => left == right) nulls build (probe.getD index .null)).map (Prod.mk index))
  leftJoin nulls build probe := (List.range probe.length).flatMap (fun index =>
    if matchIndices (fun left right => left == right) nulls build (probe.getD index .null) = [] then [(index, none)]
    else (matchIndices (fun left right => left == right) nulls build (probe.getD index .null)).map
      (fun other => (index, some other)))
  mixedLeftSemiJoin nulls left right condition := (List.range left.length).filter (fun index =>
    (matchIndices (fun left right => left == right) nulls right (left.getD index .null)).any (condition index))
  mixedLeftAntiJoin nulls left right condition := (List.range left.length).filter (fun index =>
    !(matchIndices (fun left right => left == right) nulls right (left.getD index .null)).any (condition index))
  distinctIndices := distinct
  bucketOf := remainderBucket
  hashPartition count keys := (bucketOrder count keys count, bucketOffsets count keys)
  innerJoin_perm _ _ _ := .refl _
  leftJoin_perm _ _ _ := .refl _
  mixedLeftSemiJoin_perm _ _ _ _ := .refl _
  mixedLeftAntiJoin_perm _ _ _ _ := .refl _
  distinctIndices_perm _ := .refl _
  bucketOf_lt := remainderBucket_lt
  bucketOf_equal same count := by rw [beq_iff_eq.mp same]
  hashPartition_length := length_bucketOrder
  hashPartition_offsets positive keys index inside := by
    obtain ⟨after, whole⟩ := bucketOrder_split _ keys (Nat.succ_le_of_lt inside)
    have total := congrArg List.length whole
    rw [length_bucketOrder positive, bucketOrder_succ, List.length_append, List.length_append] at total
    rw [getD_bucketOffsets _ keys (Nat.le_of_lt inside), getD_bucketOffsets _ keys (Nat.succ_le_of_lt inside),
      bucketOrder_succ, List.length_append]
    omega
  hashPartition_slice positive keys index inside := by
    obtain ⟨after, whole⟩ := bucketOrder_split _ keys (Nat.succ_le_of_lt inside)
    rw [getD_bucketOffsets _ keys (Nat.le_of_lt inside), getD_bucketOffsets _ keys (Nat.succ_le_of_lt inside),
      whole, bucketOrder_succ, List.length_append, List.append_assoc, List.drop_left, Nat.add_sub_cancel_left,
      List.take_left]
    exact .refl _

/-- The rows at the given positions. -/
def gather {width : Nat} (table : DeviceBatch width) (indices : List Nat) : DeviceBatch width :=
  indices.map (fun index => table.getD index (nullRow width))

/-- The rows at the given positions, with nulls where there is none. -/
def gatherNullify {width : Nat} (table : DeviceBatch width) (indices : List (Option Nat)) :
    DeviceBatch width :=
  indices.map (fun index => (index.map (fun found => table.getD found (nullRow width))).getD (nullRow width))

/-! ## Spilling -/

/-- The files of one side, one for each bucket, as the batches written to them, and which of them
received any row. -/
structure Spilled (width : Nat) where
  files : Nat → List (DeviceBatch width)
  nonempty : Nat → Bool

def Spilled.initial (width : Nat) : Spilled width := ⟨fun _ => [], fun _ => false⟩

def Spilled.write {width : Nat} (spilled : Spilled width) (bucket : Nat) (batch : DeviceBatch width) :
    Spilled width where
  files := Function.update spilled.files bucket (spilled.files bucket ++ [batch])
  nonempty := Function.update spilled.nonempty bucket true

section Machine

variable {leftWidth rightWidth outputWidth : Nat}

/-- One bucket of a reordered batch goes to its file, unless it has no rows. -/
def spillSlice {width : Nat} (reordered : DeviceBatch width) (offsets : List Nat)
    (spilled : Spilled width) (bucket : Nat) : Spilled width :=
  let start := offsets.getD bucket 0
  let stop := offsets.getD (bucket + 1) 0
  if start = stop then spilled else spilled.write bucket ((reordered.drop start).take (stop - start))

def spillBatch {width : Nat} (cudf : CudfJoin) (keyIndex : Fin width) (partitionCount : Nat)
    (spilled : Spilled width) (batch : DeviceBatch width) : Spilled width :=
  if batch.isEmpty then spilled
  else
    let partition := cudf.hashPartition partitionCount (batch.map (fun row => row.get keyIndex))
    (List.range partitionCount).foldl (spillSlice (gather batch partition.1) partition.2) spilled

def spillPartitionedToDisk {width : Nat} (cudf : CudfJoin) (keyIndex : Fin width) (partitionCount : Nat)
    (batches : List (DeviceBatch width)) : Spilled width :=
  batches.foldl (spillBatch cudf keyIndex partitionCount) (.initial width)

/-! ## The join machine -/

/-- A hash table over the build keys. -/
structure HashTable where
  keys : List Value
  nulls : NullEquality

structure BuildState (rightWidth : Nat) where
  rightTable : Option (DeviceBatch rightWidth)
  hashJoin : Option HashTable
  rightIsEmpty : Bool

/-- The uses of a missing table that would be undefined. -/
inductive Fault
  | missingTable | missingHashJoin
  deriving DecidableEq

/-- What the two operators do differently. `keepsUnmatched` says whether a left row without a match
is a result, `passUnmatched` what becomes of a batch when there is nothing to match, and `marksBuilt`
whether a bucket once built is remembered as built. -/
structure JoinBehaviour (leftWidth rightWidth outputWidth : Nat) where
  keepsUnmatched : Bool
  marksBuilt : Bool
  buildHashJoin : Option (DeviceBatch rightWidth) → BuildState rightWidth
  probeOneBatch : BuildState rightWidth → DeviceBatch leftWidth → Except Fault (Option (DeviceBatch outputWidth))
  passUnmatched : DeviceBatch leftWidth → Option (DeviceBatch outputWidth)

/-- What opening settles: the mode and the spilled files. -/
structure Opened (leftWidth rightWidth : Nat) where
  partitionCount : Nat
  build : Spilled rightWidth
  probe : Spilled leftWidth

/-- What changes from one call of `next` to the following. `left` is what the probe side has still
to deliver. -/
structure JoinState (leftWidth rightWidth : Nat) where
  left : List (DeviceBatch leftWidth)
  built : BuildState rightWidth
  currentPartition : Nat
  currentPartitionBuilt : Bool
  probeReader : Option (List (DeviceBatch leftWidth))
  probeBatchIndex : Nat

/-- The operators take a partition count of zero for one. -/
def openJoin (behaviour : JoinBehaviour leftWidth rightWidth outputWidth) (cudf : CudfJoin)
    (leftKeyIndex : Fin leftWidth) (rightKeyIndex : Fin rightWidth) (partitionCount : Nat)
    (left : List (DeviceBatch leftWidth)) (right : List (DeviceBatch rightWidth)) :
    Opened leftWidth rightWidth × JoinState leftWidth rightWidth :=
  let count := if partitionCount = 0 then 1 else partitionCount
  if count ≤ 1 then
    (⟨count, .initial rightWidth, .initial leftWidth⟩,
      { left
        built := behaviour.buildHashJoin (if right.isEmpty then none else some right.flatten)
        currentPartition := 0
        currentPartitionBuilt := false
        probeReader := none
        probeBatchIndex := 0 })
  else
    (⟨count, spillPartitionedToDisk cudf rightKeyIndex count right,
        spillPartitionedToDisk cudf leftKeyIndex count left⟩,
      { left := []
        built := ⟨none, none, false⟩
        currentPartition := 0
        currentPartitionBuilt := false
        probeReader := none
        probeBatchIndex := 0 })

variable (behaviour : JoinBehaviour leftWidth rightWidth outputWidth)

/-- One probe batch against what is built. -/
def probeOrPass (built : BuildState rightWidth) (batch : DeviceBatch leftWidth) :
    Except Fault (Option (DeviceBatch outputWidth)) :=
  if built.rightIsEmpty then
    if behaviour.keepsUnmatched then .ok (behaviour.passUnmatched batch) else .ok none
  else behaviour.probeOneBatch built batch

/-- The first output of a sequence of probe batches, with the batches after it. Batches without
output are skipped. -/
def pullBatches (built : BuildState rightWidth) :
    List (DeviceBatch leftWidth) → Except Fault (Option (DeviceBatch outputWidth) × List (DeviceBatch leftWidth))
  | [] => .ok (none, [])
  | batch :: batches =>
    match probeOrPass behaviour built batch with
    | .error fault => .error fault
    | .ok (some output) => .ok (some output, batches)
    | .ok none => pullBatches built batches

def ensurePartitionBuilt (opened : Opened leftWidth rightWidth) (state : JoinState leftWidth rightWidth) :
    JoinState leftWidth rightWidth :=
  if state.currentPartitionBuilt then state
  else if !opened.build.nonempty state.currentPartition then
    { state with built := ⟨none, none, true⟩, currentPartitionBuilt := true }
  else
    { state with
      built := behaviour.buildHashJoin (some (opened.build.files state.currentPartition).flatten)
      currentPartitionBuilt := behaviour.marksBuilt }

/-- The next output of the current bucket. Without rows on the probe side, or without any on the
build side for which the probe rows would be kept, the bucket is not even loaded. -/
def probeBucket (opened : Opened leftWidth rightWidth) (state : JoinState leftWidth rightWidth) :
    Except Fault (Option (DeviceBatch outputWidth) × JoinState leftWidth rightWidth) :=
  let bucket := state.currentPartition
  let hasOrphanProbeRows := behaviour.keepsUnmatched && !opened.build.nonempty bucket
  if opened.probe.nonempty bucket && (opened.build.nonempty bucket || hasOrphanProbeRows) then
    let state := ensurePartitionBuilt behaviour opened state
    if !state.built.rightIsEmpty || behaviour.keepsUnmatched then
      let reader := state.probeReader.getD (opened.probe.files bucket)
      let index := if state.probeReader.isNone then 0 else state.probeBatchIndex
      match pullBatches behaviour state.built (reader.drop index) with
      | .error fault => .error fault
      | .ok (output, rest) =>
        .ok (output, { state with
          probeReader := some reader
          probeBatchIndex := reader.length - rest.length })
    else .ok (none, state)
  else .ok (none, state)

/-- A finished bucket is released before the following one. -/
def nextPartition (state : JoinState leftWidth rightWidth) : JoinState leftWidth rightWidth :=
  { state with
    built := { state.built with rightTable := none, hashJoin := none }
    probeReader := none
    currentPartition := state.currentPartition + 1
    probeBatchIndex := 0
    currentPartitionBuilt := false }

/-- The buckets from the current one on; the count is how many of them there are. -/
def walkPartitions (opened : Opened leftWidth rightWidth) :
    Nat → JoinState leftWidth rightWidth →
      Except Fault (Option (DeviceBatch outputWidth) × JoinState leftWidth rightWidth)
  | 0, state => .ok (none, state)
  | remaining + 1, state =>
    match probeBucket behaviour opened state with
    | .error fault => .error fault
    | .ok (some output, state) => .ok (some output, state)
    | .ok (none, state) => walkPartitions opened remaining (nextPartition state)

def nextBatch (opened : Opened leftWidth rightWidth) (state : JoinState leftWidth rightWidth) :
    Except Fault (Option (DeviceBatch outputWidth) × JoinState leftWidth rightWidth) :=
  if opened.partitionCount ≤ 1 then
    match pullBatches behaviour state.built state.left with
    | .error fault => .error fault
    | .ok (output, rest) => .ok (output, { state with left := rest })
  else walkPartitions behaviour opened (opened.partitionCount - state.currentPartition) state

end Machine

/-! ## Inner and outer joins -/

section HashJoin

variable {leftWidth rightWidth : Nat}

/-- The operator as constructed; its output rows are the left columns, then the right ones. -/
structure HashJoinOperator (leftWidth rightWidth : Nat) where
  leftKeyIndex : Fin leftWidth
  rightKeyIndex : Fin rightWidth
  partitionCount : Nat
  joinType : JoinType

variable (cudf : CudfJoin) (operator : HashJoinOperator leftWidth rightWidth)

def HashJoinOperator.buildHashJoin (table : Option (DeviceBatch rightWidth)) : BuildState rightWidth :=
  match table with
  | none => ⟨none, none, true⟩
  | some [] => ⟨none, none, true⟩
  | some rows => ⟨some rows, some ⟨rows.map (fun row => row.get operator.rightKeyIndex), .equal⟩, false⟩

/-- The gather maps of a probe batch, left and right together. -/
def HashJoinOperator.gatherMaps (hashJoin : HashTable) (leftBatch : DeviceBatch leftWidth) :
    List (Nat × Option Nat) :=
  let leftKeys := leftBatch.map (fun row => row.get operator.leftKeyIndex)
  if operator.joinType = .leftOuter then cudf.leftJoin hashJoin.nulls hashJoin.keys leftKeys
  else (cudf.innerJoin hashJoin.nulls hashJoin.keys leftKeys).map (fun pair => (pair.1, some pair.2))

def HashJoinOperator.probeOneBatch (built : BuildState rightWidth) (leftBatch : DeviceBatch leftWidth) :
    Except Fault (Option (DeviceBatch (leftWidth + rightWidth))) :=
  match built.hashJoin, built.rightTable with
  | none, _ => .error .missingHashJoin
  | _, none => .error .missingTable
  | some hashJoin, some rightTable =>
    let indices := operator.gatherMaps cudf hashJoin leftBatch
    if indices.isEmpty then .ok none
    else .ok (some (List.zipWith (· ++ ·) (gather leftBatch (indices.map Prod.fst))
      (gatherNullify rightTable (indices.map Prod.snd))))

def nullExtendBatch (leftBatch : DeviceBatch leftWidth) : Option (DeviceBatch (leftWidth + rightWidth)) :=
  if leftBatch.isEmpty then none
  else some (leftBatch.map (fun row => row ++ nullRow rightWidth))

def HashJoinOperator.behaviour : JoinBehaviour leftWidth rightWidth (leftWidth + rightWidth) where
  keepsUnmatched := operator.joinType == .leftOuter
  marksBuilt := true
  buildHashJoin := operator.buildHashJoin
  probeOneBatch := operator.probeOneBatch cudf
  passUnmatched := nullExtendBatch

/-- `HashJoinOperator::open` -/
def HashJoinOperator.openOperator (left : List (DeviceBatch leftWidth)) (right : List (DeviceBatch rightWidth)) :
    Opened leftWidth rightWidth × JoinState leftWidth rightWidth :=
  openJoin (operator.behaviour cudf) cudf operator.leftKeyIndex operator.rightKeyIndex
    operator.partitionCount left right

def HashJoinOperator.next (opened : Opened leftWidth rightWidth) (state : JoinState leftWidth rightWidth) :
    Except Fault (Option (DeviceBatch (leftWidth + rightWidth)) × JoinState leftWidth rightWidth) :=
  nextBatch (operator.behaviour cudf) opened state

end HashJoin

/-! ## Semi and anti joins -/

section SemiAntiJoin

variable {leftWidth rightWidth : Nat}

/-- The operator as constructed; its output rows are the left rows. The residual predicate reads the
left columns, then the right ones. -/
structure SemiAntiJoinOperator (leftWidth rightWidth : Nat) where
  leftKeyIndex : Fin leftWidth
  rightKeyIndex : Fin rightWidth
  partitionCount : Nat
  joinType : JoinType
  residualPredicate : Option Expression
  semiOrAnti : joinType = .leftSemi ∨ joinType = .leftAnti

variable (cudf : CudfJoin) (operator : SemiAntiJoinOperator leftWidth rightWidth)

/-- With a residual predicate no hash table is built: the mixed joins read the table itself. -/
def SemiAntiJoinOperator.buildHashJoin (table : Option (DeviceBatch rightWidth)) : BuildState rightWidth :=
  match table with
  | none => ⟨none, none, true⟩
  | some [] => ⟨none, none, true⟩
  | some rows =>
    if operator.residualPredicate.isSome then ⟨some rows, none, false⟩
    else ⟨some rows, some ⟨rows.map (fun row => row.get operator.rightKeyIndex), .equal⟩, false⟩

/-- A residual predicate on a pair of rows. -/
def residualHolds (predicate : Expression) (left : Vector Value leftWidth) (right : Vector Value rightWidth) :
    Bool :=
  (eval predicate (left.toList ++ right.toList)).isTrue

def SemiAntiJoinOperator.probeOneBatch (built : BuildState rightWidth) (leftBatch : DeviceBatch leftWidth) :
    Except Fault (Option (DeviceBatch leftWidth)) :=
  let leftKeys := leftBatch.map (fun row => row.get operator.leftKeyIndex)
  match operator.residualPredicate with
  | some predicate =>
    match built.rightTable with
    | none => .error .missingTable
    | some rightTable =>
      let rightKeys := rightTable.map (fun row => row.get operator.rightKeyIndex)
      let condition (left right : Nat) :=
        residualHolds predicate (leftBatch.getD left (nullRow leftWidth))
          (rightTable.getD right (nullRow rightWidth))
      let leftIndices :=
        if operator.joinType = .leftSemi then cudf.mixedLeftSemiJoin .equal leftKeys rightKeys condition
        else cudf.mixedLeftAntiJoin .equal leftKeys rightKeys condition
      if leftIndices.isEmpty then .ok none else .ok (some (gather leftBatch leftIndices))
  | none =>
    match built.hashJoin with
    | none => .error .missingHashJoin
    | some hashJoin =>
      if operator.joinType = .leftSemi then
        let leftIndices := (cudf.innerJoin hashJoin.nulls hashJoin.keys leftKeys).map Prod.fst
        if leftIndices.isEmpty then .ok none
        else .ok (some (gather leftBatch (cudf.distinctIndices leftIndices)))
      else
        let indices := cudf.leftJoin hashJoin.nulls hashJoin.keys leftKeys
        if indices.isEmpty then .ok none
        else
          let unmatchedIndices := (indices.filter (fun pair => pair.2.isNone)).map Prod.fst
          if unmatchedIndices.isEmpty then .ok none else .ok (some (gather leftBatch unmatchedIndices))

/-- A batch with nothing to match passes through as it is, rows or not, and a bucket that was built
is not marked as built, so it is built again for every batch it returns. -/
def SemiAntiJoinOperator.behaviour : JoinBehaviour leftWidth rightWidth leftWidth where
  keepsUnmatched := operator.joinType == .leftAnti
  marksBuilt := false
  buildHashJoin := operator.buildHashJoin
  probeOneBatch := operator.probeOneBatch cudf
  passUnmatched := some

/-- `SemiAntiJoinOperator::open` -/
def SemiAntiJoinOperator.openOperator (left : List (DeviceBatch leftWidth))
    (right : List (DeviceBatch rightWidth)) : Opened leftWidth rightWidth × JoinState leftWidth rightWidth :=
  openJoin (operator.behaviour cudf) cudf operator.leftKeyIndex operator.rightKeyIndex
    operator.partitionCount left right

def SemiAntiJoinOperator.next (opened : Opened leftWidth rightWidth) (state : JoinState leftWidth rightWidth) :
    Except Fault (Option (DeviceBatch leftWidth) × JoinState leftWidth rightWidth) :=
  nextBatch (operator.behaviour cudf) opened state

end SemiAntiJoin

end KernelLake.GpuJoins
