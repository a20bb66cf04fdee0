import KernelLake.GpuJoinProofs

/-!
The two backends on one join node.

Both run an equality join on one key column, with a residual predicate in semi and anti joins only.
The CPU backend hands the node to Acero, whose default key comparison lets no null match. The GPU
operators ask cuDF to take nulls for equal. The backends therefore differ exactly when null keys
meet.
-/

namespace KernelLake.JoinBackends

open KernelLake.Types KernelLake.Expressions KernelLake.Evaluation KernelLake.LogicalPlans
open KernelLake.GpuJoins KernelLake.GpuJoinProofs
open KernelLake.Library.Relations KernelLake.Library.PartitionedJoins KernelLake.Library.Pulling

variable {leftWidth rightWidth : Nat}

/-- An equality join of two inputs. Only semi and anti joins carry a residual predicate. -/
structure HashJoinNode (leftWidth rightWidth : Nat) where
  leftKeyIndex : Fin leftWidth
  rightKeyIndex : Fin rightWidth
  joinType : JoinType
  residualPredicate : Option Expression
  residualOnlySemiAnti : residualPredicate = none ∨ joinType = .leftSemi ∨ joinType = .leftAnti

/-! ## The GPU backend -/

/-- The operator a node is built into, run to its end. Rows are lists of values. -/
def gpuRows (cudf : CudfJoin) (node : HashJoinNode leftWidth rightWidth) (partitionCount fuel : Nat)
    (left : List (DeviceBatch leftWidth)) (right : List (DeviceBatch rightWidth)) : Option (List Row) :=
  if semiOrAnti : node.joinType = .leftSemi ∨ node.joinType = .leftAnti then
    let operator : SemiAntiJoinOperator leftWidth rightWidth :=
      ⟨node.leftKeyIndex, node.rightKeyIndex, partitionCount, node.joinType, node.residualPredicate, semiOrAnti⟩
    let start := operator.openOperator cudf left right
    (drain (operator.next cudf start.1) fuel start.2).map (fun batches => batches.flatten.map Vector.toList)
  else
    let operator : HashJoinOperator leftWidth rightWidth :=
      ⟨node.leftKeyIndex, node.rightKeyIndex, partitionCount, node.joinType⟩
    let start := operator.openOperator cudf left right
    (drain (operator.next cudf start.1) fuel start.2).map (fun batches => batches.flatten.map Vector.toList)

/-! ## The CPU backend -/

inductive AceroJoinType
  | inner | leftOuter | leftSemi | leftAnti
  deriving DecidableEq

/-- How Acero compares keys: `eq` never matches a null, `is` takes two nulls for equal. -/
inductive JoinKeyCmp
  | eq | is
  deriving DecidableEq

structure HashJoinNodeOptions (leftWidth rightWidth : Nat) where
  joinType : AceroJoinType
  leftKey : Fin leftWidth
  rightKey : Fin rightWidth
  keyCmp : JoinKeyCmp := .eq
  filter : Expression

def aceroJoinType : JoinType → AceroJoinType
  | .leftOuter => .leftOuter
  | .leftSemi => .leftSemi
  | .leftAnti => .leftAnti
  | .inner => .inner

/-- `translate` of a hash join. A node without a residual predicate gets a filter that is always true. -/
def translateHashJoin (node : HashJoinNode leftWidth rightWidth) : HashJoinNodeOptions leftWidth rightWidth where
  joinType := aceroJoinType node.joinType
  leftKey := node.leftKeyIndex
  rightKey := node.rightKeyIndex
  filter := node.residualPredicate.getD (.literal (.bool true) ⟨.boolean, false, none, none⟩)

/-- Two rows match when their keys compare equal and the filter is `TRUE` on both together. -/
def aceroMatch (keyEqual : Value → Value → Bool) (options : HashJoinNodeOptions leftWidth rightWidth)
    (left : Vector Value leftWidth) (right : Vector Value rightWidth) : Bool :=
  keysMatch keyEqual (if options.keyCmp = .is then .equal else .unequal) (left.get options.leftKey)
      (right.get options.rightKey) &&
    (eval options.filter (left.toList ++ right.toList)).isTrue

/-- What a left row makes of its matches: pairs, null-extended pairs, or itself. -/
def finishRows (joinType : AceroJoinType) (row : Vector Value leftWidth)
    (others : List (Vector Value rightWidth)) : List Row :=
  match joinType with
  | .inner => others.map (fun other => row.toList ++ other.toList)
  | .leftOuter =>
    if others.isEmpty then [row.toList ++ (nullRow rightWidth).toList]
    else others.map (fun other => row.toList ++ other.toList)
  | .leftSemi => if others.isEmpty then [] else [row.toList]
  | .leftAnti => if others.isEmpty then [row.toList] else []

/-- Acero's hash join, as documented, in no particular order of rows. -/
structure Acero (keyEqual : Value → Value → Bool) where
  hashjoin : {leftWidth rightWidth : Nat} → HashJoinNodeOptions leftWidth rightWidth →
    List (Vector Value leftWidth) → List (Vector Value rightWidth) → List Row
  hashjoin_perm : ∀ {leftWidth rightWidth : Nat} (options : HashJoinNodeOptions leftWidth rightWidth) left right,
    (hashjoin options left right).Perm
      (joinRows (aceroMatch keyEqual options) (finishRows options.joinType) left right)

def cpuRows {keyEqual : Value → Value → Bool} (acero : Acero keyEqual) (node : HashJoinNode leftWidth rightWidth)
    (left : List (DeviceBatch leftWidth)) (right : List (DeviceBatch rightWidth)) : List Row :=
  acero.hashjoin (translateHashJoin node) left.flatten right.flatten

/-! ## Where they meet -/

section Agreement

variable (node : HashJoinNode leftWidth rightWidth)

def nullLeft (row : Vector Value leftWidth) : Bool :=
  row.get node.leftKeyIndex == .null

def nullRight (row : Vector Value rightWidth) : Bool :=
  row.get node.rightKeyIndex == .null

def residualTrue (left : Vector Value leftWidth) (right : Vector Value rightWidth) : Bool :=
  node.residualPredicate.all (fun predicate => residualHolds predicate left right)

/-- The pairs of rows with null keys on both sides that the residual predicate accepts. -/
def nullPair (left : Vector Value leftWidth) (right : Vector Value rightWidth) : Bool :=
  nullLeft node left && nullRight node right && residualTrue node left right

/-- No two null keys meet. In a left outer join they may when the only right row with a null key
is null throughout: it then looks like the row that stands for no match. -/
def nullsApart (left : List (Vector Value leftWidth)) (right : List (Vector Value rightWidth)) : Prop :=
  (∀ row ∈ left, ∀ other ∈ right, nullPair node row other = false) ∨
    node.joinType = .leftOuter ∧ right.filter (nullRight node) = [nullRow rightWidth]

/-- The rows that match on the GPU. -/
def gpuMatch (keyEqual : Value → Value → Bool) (left : Vector Value leftWidth)
    (right : Vector Value rightWidth) : Bool :=
  keysMatch keyEqual .equal (left.get node.leftKeyIndex) (right.get node.rightKeyIndex) &&
    residualTrue node left right

/-- The rows that match on the CPU. -/
def cpuMatch (keyEqual : Value → Value → Bool) (left : Vector Value leftWidth)
    (right : Vector Value rightWidth) : Bool :=
  keysMatch keyEqual .unequal (left.get node.leftKeyIndex) (right.get node.rightKeyIndex) &&
    residualTrue node left right

theorem aceroMatch_translate (keyEqual : Value → Value → Bool) :
    aceroMatch keyEqual (translateHashJoin node) = cpuMatch node keyEqual := by
  funext left right
  unfold aceroMatch cpuMatch translateHashJoin residualTrue
  cases node.residualPredicate with
  | none => rfl
  | some predicate => rfl

theorem gpuMatch_null {left : Vector Value leftWidth} (isNull : nullLeft node left = true)
    (keyEqual : Value → Value → Bool) (right : Vector Value rightWidth) :
    gpuMatch node keyEqual left right = nullPair node left right := by
  have key : left.get node.leftKeyIndex = .null := by simpa [nullLeft] using isNull
  unfold gpuMatch nullPair nullRight
  rw [isNull, key, Bool.true_and]
  cases right.get node.rightKeyIndex <;> rfl

theorem cpuMatch_null {left : Vector Value leftWidth} (isNull : nullLeft node left = true)
    (keyEqual : Value → Value → Bool) (right : Vector Value rightWidth) :
    cpuMatch node keyEqual left right = false := by
  have key : left.get node.leftKeyIndex = .null := by simpa [nullLeft] using isNull
  unfold cpuMatch
  rw [key]
  cases right.get node.rightKeyIndex <;> rfl

theorem gpuMatch_present {left : Vector Value leftWidth} (present : nullLeft node left = false)
    (keyEqual : Value → Value → Bool) (right : Vector Value rightWidth) :
    gpuMatch node keyEqual left right = cpuMatch node keyEqual left right := by
  have key : left.get node.leftKeyIndex ≠ .null := by simpa [nullLeft] using present
  unfold gpuMatch cpuMatch
  generalize left.get node.leftKeyIndex = leftKey at key ⊢
  cases leftKey with
  | null => exact absurd rfl key
  | _ => cases right.get node.rightKeyIndex <;> rfl

/-- The rows of a join on one backend, up to order: those of the left rows with a null key, and the
others. -/
theorem joinRows_split (on : Vector Value leftWidth → Vector Value rightWidth → Bool)
    (left : List (Vector Value leftWidth)) (right : List (Vector Value rightWidth)) (joinType : AceroJoinType) :
    (joinRows on (finishRows joinType) left right).Perm
      (joinRows on (finishRows joinType) (left.filter (nullLeft node)) right ++
        joinRows on (finishRows joinType) (left.filter (fun row => !nullLeft node row)) right) := by
  rw [← joinRows_append]
  exact (List.filter_append_perm (nullLeft node) left).symm.flatMap_right _

theorem joinRows_present (keyEqual : Value → Value → Bool) (joinType : AceroJoinType)
    (left : List (Vector Value leftWidth)) (right : List (Vector Value rightWidth)) :
    joinRows (gpuMatch node keyEqual) (finishRows joinType) (left.filter (fun row => !nullLeft node row)) right =
      joinRows (cpuMatch node keyEqual) (finishRows joinType) (left.filter (fun row => !nullLeft node row))
        right := by
  refine List.flatMap_congr (fun row member => ?_)
  have present : nullLeft node row = false := by simpa using List.of_mem_filter member
  have same : matching (gpuMatch node keyEqual) right row = matching (cpuMatch node keyEqual) right row :=
    List.filter_congr (fun other _ => gpuMatch_present node present keyEqual other)
  rw [same]

/-- The backends agree on a join when they agree on the left rows with a null key: the GPU pairs
these with the null keys of the right side, the CPU with nothing. -/
theorem joinRows_agree_iff (keyEqual : Value → Value → Bool) (joinType : AceroJoinType)
    (left : List (Vector Value leftWidth)) (right : List (Vector Value rightWidth)) :
    (joinRows (gpuMatch node keyEqual) (finishRows joinType) left right).Perm
        (joinRows (cpuMatch node keyEqual) (finishRows joinType) left right) ↔
      ((left.filter (nullLeft node)).flatMap (fun row =>
        finishRows joinType row (right.filter (nullPair node row)))).Perm
        ((left.filter (nullLeft node)).flatMap (fun row =>
          finishRows joinType row ([] : List (Vector Value rightWidth)))) := by
  have gpu : joinRows (gpuMatch node keyEqual) (finishRows joinType) (left.filter (nullLeft node)) right =
      (left.filter (nullLeft node)).flatMap (fun row =>
        finishRows joinType row (right.filter (nullPair node row))) := by
    refine List.flatMap_congr (fun row member => ?_)
    rw [matching, List.filter_congr (fun other _ => gpuMatch_null node (List.of_mem_filter member) keyEqual other)]
  have cpu : joinRows (cpuMatch node keyEqual) (finishRows joinType) (left.filter (nullLeft node)) right =
      (left.filter (nullLeft node)).flatMap (fun row =>
        finishRows joinType row ([] : List (Vector Value rightWidth))) := by
    refine List.flatMap_congr (fun row member => ?_)
    rw [matching, List.filter_congr (fun other _ => cpuMatch_null node (List.of_mem_filter member) keyEqual other),
      List.filter_false]
  have gpuSplit := joinRows_split node (gpuMatch node keyEqual) left right joinType
  have cpuSplit := joinRows_split node (cpuMatch node keyEqual) left right joinType
  rw [gpu, joinRows_present] at gpuSplit
  rw [cpu] at cpuSplit
  rw [gpuSplit.congr_left, cpuSplit.congr_right, List.perm_append_right_iff]

/-- Null keys stay apart when no left row with a null key has a partner. -/
theorem nullsApart_iff (left : List (Vector Value leftWidth)) (right : List (Vector Value rightWidth)) :
    (∀ row ∈ left, ∀ other ∈ right, nullPair node row other = false) ↔
      ∀ row ∈ left.filter (nullLeft node), right.filter (nullPair node row) = [] := by
  constructor
  · intro apart row member
    refine List.filter_eq_nil_iff.mpr (fun other inRight => ?_)
    rw [apart row (List.mem_of_mem_filter member) other inRight]
    exact Bool.false_ne_true
  · intro none row member other inRight
    by_cases isNull : nullLeft node row = true
    · have empty := none row (List.mem_filter.mpr ⟨member, isNull⟩)
      simpa using List.filter_eq_nil_iff.mp empty other inRight
    · simp [nullPair, isNull]

variable (left : List (Vector Value leftWidth)) (right : List (Vector Value rightWidth))

/-- Inner and semi joins drop a left row without a match, so any null pair adds rows on the GPU. -/
theorem agree_iff_dropping {joinType : AceroJoinType}
    (drops : ∀ row (others : List (Vector Value rightWidth)),
      finishRows joinType (row : Vector Value leftWidth) others = [] ↔ others = []) :
    ((left.filter (nullLeft node)).flatMap (fun row =>
          finishRows joinType row (right.filter (nullPair node row)))).Perm
        ((left.filter (nullLeft node)).flatMap (fun row =>
          finishRows joinType row ([] : List (Vector Value rightWidth)))) ↔
      ∀ row ∈ left.filter (nullLeft node), right.filter (nullPair node row) = [] := by
  have nothing : (left.filter (nullLeft node)).flatMap (fun row =>
      finishRows joinType row ([] : List (Vector Value rightWidth))) = [] :=
    List.flatMap_eq_nil_iff.mpr (fun row _ => (drops row []).mpr rfl)
  rw [nothing, List.perm_nil, List.flatMap_eq_nil_iff]
  exact forall₂_congr (fun row _ => drops row _)

/-- An anti join keeps a left row without a match, so any null pair removes rows on the GPU. -/
theorem agree_iff_anti :
    ((left.filter (nullLeft node)).flatMap (fun row =>
          finishRows .leftAnti row (right.filter (nullPair node row)))).Perm
        ((left.filter (nullLeft node)).flatMap (fun row =>
          finishRows .leftAnti row ([] : List (Vector Value rightWidth)))) ↔
      ∀ row ∈ left.filter (nullLeft node), right.filter (nullPair node row) = [] := by
  constructor
  · intro same
    have lengths := same.length_eq
    have kept : ∀ rows : List (Vector Value leftWidth),
        rows.flatMap (fun row => finishRows .leftAnti row (right.filter (nullPair node row))) =
          (rows.filter (fun row => (right.filter (nullPair node row)).isEmpty)).map Vector.toList := by
      intro rows
      rw [← flatMap_if_single, List.map_flatMap]
      refine List.flatMap_congr (fun row _ => ?_)
      simp only [finishRows]
      split <;> rfl
    rw [kept, List.length_map] at lengths
    have whole : ((left.filter (nullLeft node)).flatMap (fun row =>
        finishRows .leftAnti row ([] : List (Vector Value rightWidth)))).length =
          (left.filter (nullLeft node)).length := by
      simp [finishRows]
    rw [whole, List.length_filter_eq_length_iff] at lengths
    exact fun row member => List.isEmpty_iff.mp (lengths row member)
  · intro none
    refine .of_eq (List.flatMap_congr (fun row member => ?_))
    rw [none row member]

/-- An outer join pairs a left row without a match with nulls, so null pairs change its rows unless
they produce those very rows. -/
theorem agree_iff_outer (noResidual : node.residualPredicate = none) :
    ((left.filter (nullLeft node)).flatMap (fun row =>
          finishRows .leftOuter row (right.filter (nullPair node row)))).Perm
        ((left.filter (nullLeft node)).flatMap (fun row =>
          finishRows .leftOuter row ([] : List (Vector Value rightWidth)))) ↔
      (∀ row ∈ left.filter (nullLeft node), right.filter (nullPair node row) = []) ∨
        right.filter (nullRight node) = [nullRow rightWidth] := by
  have partners : ∀ row ∈ left.filter (nullLeft node),
      right.filter (nullPair node row) = right.filter (nullRight node) := by
    intro row member
    refine List.filter_congr (fun other _ => ?_)
    simp [nullPair, residualTrue, noResidual, List.of_mem_filter member]
  have gpu : (left.filter (nullLeft node)).flatMap (fun row =>
      finishRows .leftOuter row (right.filter (nullPair node row))) =
        (left.filter (nullLeft node)).flatMap (fun row =>
          finishRows .leftOuter row (right.filter (nullRight node))) :=
    List.flatMap_congr (fun row member => by rw [partners row member])
  rw [gpu]
  constructor
  · intro same
    cases lefts : left.filter (nullLeft node) with
    | nil => exact .inl (by simp)
    | cons first rest =>
      cases nulls : right.filter (nullRight node) with
      | nil =>
        refine .inl (fun row member => ?_)
        rw [← lefts] at member
        rw [partners row member, nulls]
      | cons other others =>
        rw [lefts, nulls] at same
        have lengths := same.length_eq
        simp only [finishRows, List.isEmpty_cons, Bool.false_eq_true, if_false, List.isEmpty_nil, if_true,
          List.length_flatMap, List.length_map, List.map_const', List.sum_replicate_nat, List.length_cons,
          List.length_nil] at lengths
        have single : others = [] := by
          have one : others.length + 1 = 1 := Nat.eq_of_mul_eq_mul_left (Nat.succ_pos _) lengths
          exact List.length_eq_zero_iff.mp (by omega)
        have found : first.toList ++ other.toList ∈ (first :: rest).flatMap (fun row =>
            finishRows .leftOuter row ([] : List (Vector Value rightWidth))) := by
          refine same.mem_iff.mp (List.mem_flatMap.mpr ⟨first, List.mem_cons_self .., ?_⟩)
          simp [finishRows]
        obtain ⟨row, _, paired⟩ := List.mem_flatMap.mp found
        have pieces : first.toList ++ other.toList = row.toList ++ (nullRow rightWidth).toList := by
          simpa [finishRows] using paired
        have sameRight := (List.append_inj pieces (by simp)).2
        rw [single, Vector.toList_inj.mp sameRight]
        exact .inr rfl
  · rintro (none | only)
    · refine .of_eq (List.flatMap_congr (fun row member => ?_))
      rw [← partners row member, none row member]
    · refine .of_eq (List.flatMap_congr (fun row _ => ?_))
      rw [only]
      rfl

/-- Null pairs decide for every join type. -/
theorem agree_iff_nullsApart (keyEqual : Value → Value → Bool) :
    (joinRows (gpuMatch node keyEqual) (finishRows (aceroJoinType node.joinType)) left right).Perm
        (joinRows (cpuMatch node keyEqual) (finishRows (aceroJoinType node.joinType)) left right) ↔
      nullsApart node left right := by
  rw [joinRows_agree_iff, nullsApart, nullsApart_iff]
  cases joinType : node.joinType with
  | inner =>
    rw [aceroJoinType, agree_iff_dropping node left right (fun row others => by simp [finishRows])]
    simp
  | leftOuter =>
    have noResidual : node.residualPredicate = none := by
      rcases node.residualOnlySemiAnti with none | semi | anti
      · exact none
      · rw [joinType] at semi; cases semi
      · rw [joinType] at anti; cases anti
    rw [aceroJoinType, agree_iff_outer node left right noResidual]
    simp
  | leftSemi =>
    rw [aceroJoinType, agree_iff_dropping node left right (fun row others => by
      simp only [finishRows]; cases others <;> simp)]
    simp
  | leftAnti =>
    rw [aceroJoinType, agree_iff_anti]
    simp

end Agreement

/-! ## Whole runs -/

section Runs

variable (cudf : CudfJoin) (node : HashJoinNode leftWidth rightWidth)

theorem hashJoinRows_toList (partitionCount : Nat)
    (pairs : ¬ (node.joinType = .leftSemi ∨ node.joinType = .leftAnti))
    (left : List (Vector Value leftWidth)) (right : List (Vector Value rightWidth)) :
    (hashJoinRows cudf ⟨node.leftKeyIndex, node.rightKeyIndex, partitionCount, node.joinType⟩ left
        right).map Vector.toList =
      joinRows (gpuMatch node cudf.keyEqual) (finishRows (aceroJoinType node.joinType)) left right := by
  have noResidual : node.residualPredicate = none := node.residualOnlySemiAnti.resolve_right pairs
  have sameMatch : keyRowsMatch cudf node.leftKeyIndex node.rightKeyIndex = gpuMatch node cudf.keyEqual := by
    funext row other
    simp [keyRowsMatch, gpuMatch, residualTrue, noResidual]
  rw [hashJoinRows, joinRows, List.map_flatMap, sameMatch]
  refine List.flatMap_congr (fun row _ => ?_)
  generalize matching (gpuMatch node cudf.keyEqual) right row = others
  cases joinType : node.joinType with
  | inner => simp [finishHashJoin, finishRows, aceroJoinType]
  | leftOuter => cases others <;> simp [finishHashJoin, finishRows, aceroJoinType]
  | leftSemi => exact absurd (.inl joinType) pairs
  | leftAnti => exact absurd (.inr joinType) pairs

theorem semiAntiRows_toList (partitionCount : Nat)
    (semiOrAnti : node.joinType = .leftSemi ∨ node.joinType = .leftAnti)
    (left : List (Vector Value leftWidth)) (right : List (Vector Value rightWidth)) :
    (semiAntiRows cudf ⟨node.leftKeyIndex, node.rightKeyIndex, partitionCount, node.joinType,
        node.residualPredicate, semiOrAnti⟩ left right).map Vector.toList =
      joinRows (gpuMatch node cudf.keyEqual) (finishRows (aceroJoinType node.joinType)) left right := by
  rw [← joinRows_semiAnti, joinRows, List.map_flatMap]
  refine List.flatMap_congr (fun row _ => ?_)
  change (finishSemiAnti node.joinType row (matching (gpuMatch node cudf.keyEqual) right row)).map
    Vector.toList = _
  generalize matching (gpuMatch node cudf.keyEqual) right row = others
  rcases semiOrAnti with joinType | joinType
  · rw [joinType]
    cases others <;> rfl
  · rw [joinType]
    cases others <;> rfl

/-- The rows of a GPU join are those of the join whose null keys match. -/
theorem gpuRows_perm (partitionCount : Nat) (left : List (DeviceBatch leftWidth))
    (right : List (DeviceBatch rightWidth)) :
    ∃ enough, ∀ fuel, enough ≤ fuel → ∃ rows,
      gpuRows cudf node partitionCount fuel left right = some rows ∧
        rows.Perm (joinRows (gpuMatch node cudf.keyEqual) (finishRows (aceroJoinType node.joinType))
          left.flatten right.flatten) := by
  unfold gpuRows
  by_cases semiOrAnti : node.joinType = .leftSemi ∨ node.joinType = .leftAnti
  · obtain ⟨enough, runs⟩ := semiAntiJoin_drains cudf ⟨node.leftKeyIndex, node.rightKeyIndex, partitionCount,
      node.joinType, node.residualPredicate, semiOrAnti⟩ left right
    refine ⟨enough, fun fuel more => ?_⟩
    obtain ⟨batches, drained, same⟩ := runs fuel more
    refine ⟨batches.flatten.map Vector.toList, ?_, (same.map _).trans (.of_eq ?_)⟩
    · simp only [dif_pos semiOrAnti, drained, Option.map_some]
    · exact semiAntiRows_toList cudf node partitionCount semiOrAnti _ _
  · obtain ⟨enough, runs⟩ := hashJoin_drains cudf ⟨node.leftKeyIndex, node.rightKeyIndex, partitionCount,
      node.joinType⟩ left right
    refine ⟨enough, fun fuel more => ?_⟩
    obtain ⟨batches, drained, same⟩ := runs fuel more
    refine ⟨batches.flatten.map Vector.toList, ?_, (same.map _).trans (.of_eq ?_)⟩
    · simp only [dif_neg semiOrAnti, drained, Option.map_some]
    · exact hashJoinRows_toList cudf node partitionCount semiOrAnti _ _

/-- The backends return the same rows exactly when null keys stay apart. -/
theorem backends_agree_iff (acero : Acero cudf.keyEqual) (partitionCount : Nat)
    (left : List (DeviceBatch leftWidth)) (right : List (DeviceBatch rightWidth)) :
    ∃ enough, ∀ more, ∃ rows,
      gpuRows cudf node partitionCount (enough + more) left right = some rows ∧
        (rows.Perm (cpuRows acero node left right) ↔ nullsApart node left.flatten right.flatten) := by
  obtain ⟨enough, runs⟩ := gpuRows_perm cudf node partitionCount left right
  refine ⟨enough, fun more => ?_⟩
  obtain ⟨rows, ran, same⟩ := runs (enough + more) (by omega)
  refine ⟨rows, ran, ?_⟩
  have cpu := acero.hashjoin_perm (translateHashJoin node) left.flatten right.flatten
  rw [aceroMatch_translate] at cpu
  rw [← agree_iff_nullsApart node _ _ cudf.keyEqual, same.congr_left, cpuRows, cpu.congr_right]
  rfl

end Runs

/-- Acero with rows in left-major order. -/
def Acero.nestedLoop (keyEqual : Value → Value → Bool) : Acero keyEqual where
  hashjoin options left right := joinRows (aceroMatch keyEqual options) (finishRows options.joinType) left right
  hashjoin_perm _ _ _ := .refl _

def regionJoin : HashJoinNode 2 2 where
  leftKeyIndex := 0
  rightKeyIndex := 0
  joinType := .inner
  residualPredicate := none
  residualOnlySemiAnti := .inl rfl

/-- A sale and a region without a region number are joined on the GPU and not on the CPU. -/
theorem null_keys_join_on_gpu :
    ∃ rows, gpuRows .nestedLoop regionJoin 1 2 [[#v[.null, .int 10]]] [[#v[.null, .string "nowhere"]]] =
        some rows ∧
      ¬ rows.Perm (cpuRows (.nestedLoop CudfJoin.nestedLoop.keyEqual) regionJoin [[#v[.null, .int 10]]]
        [[#v[.null, .string "nowhere"]]]) :=
  ⟨[[.null, .int 10, .null, .string "nowhere"]], by decide +kernel, by decide +kernel⟩

example : gpuRows .nestedLoop ⟨0, 0, .leftOuter, none, .inl rfl⟩ 2 9
    [[#v[.int 1, .int 10], #v[.int 2, .int 20]], [], [#v[.int 3, .int 30]]] [[#v[.int 3, .string "south"]]] =
      some [[.int 2, .int 20, .null, .null], [.int 1, .int 10, .null, .null],
        [.int 3, .int 30, .int 3, .string "south"]] := by
  decide +kernel

end KernelLake.JoinBackends
