import KernelLake.HashAggregationProofs
import Mathlib.Data.Int.Basic

/-!
The limit on the number of groups, from the configuration to the operator.

The configured limit has 64 bits. The builder casts it to the row count type of the library, which
has 32 bits and a sign, and the operator compares the result with the rows of its accumulated table
after each fold. A run meets the limit when it has a batch and the rows it must hold are over it
(`executeWithin_raises_iff`), so neither the batches nor the folds matter. The rows are the different
keys without a null, or in a distinct count the different rows of key and argument.

The limit is therefore the configured one exactly for some configurations and inputs
(`limit_exact_iff`): a limit from 2^31 on changes its value in the cast, and a limit that only the
keys with a null exceed is not met.
-/

namespace KernelLake.GroupLimits

open KernelLake.Types KernelLake.Expressions KernelLake.Evaluation KernelLake.LogicalPlans
open KernelLake.HashAggregation KernelLake.HashAggregationProofs
open KernelLake.Library.Relations KernelLake.Library.Grouping KernelLake.Library.Results

/-! ## The builder -/

def kDefaultMaxDistinctKeys : Int32 := 75000000

/-- The limit the builder hands to the operator. Zero stands for a limit that is not configured. -/
def builtLimit (configured : UInt64) : Int32 :=
  if configured ≠ 0 then configured.toUInt32.toInt32 else kDefaultMaxDistinctKeys

theorem builtLimit_toInt {configured : UInt64} (isSet : configured ≠ 0) :
    (builtLimit configured).toInt = (configured.toNat : Int).bmod (2 ^ 32) := by
  rw [builtLimit, if_pos isSet]
  change configured.toUInt32.toBitVec.toInt = _
  rw [BitVec.toInt_eq_toNat_bmod, UInt32.toNat_toBitVec, UInt64.toNat_toUInt32]
  push_cast
  exact Int.emod_bmod ..

/-- Below 2^31 the cast keeps the limit. -/
theorem builtLimit_small {configured : UInt64} (isSet : configured ≠ 0) (small : configured.toNat < 2 ^ 31) :
    (builtLimit configured).toInt = configured.toNat := by
  rw [builtLimit_toInt isSet]
  exact Int.bmod_eq_of_le (by omega) (by omega)

/-! ## The operator with a signed limit -/

variable {ν : Type} [AddCommMonoidWithOne ν] [LinearOrder ν]

section Within

variable (cudf : CudfGroupby ν) (materialize : Expression → Row → Cell ν)
variable (operator : HashAggregateOperator) (compiled : Compiled) (limit : Int32)

def limitMessage (rows : Nat) : String :=
  "HashAggregateOperator: " ++
    (if compiled.countDistinctArgument.isSome then
      "distinct (group-key, COUNT(DISTINCT) argument) row count" else "distinct key count") ++
    " " ++ toString rows ++ " exceeds max_distinct_keys (" ++ toString limit.toInt ++ ")"

def flushWithin (progress : Progress ν) : Except String (Progress ν) :=
  if progress.pendingPartials.isEmpty then .ok progress
  else
    let accumulated := foldPending cudf operator compiled progress
    if (accumulated.length : Int) > limit.toInt then .error (limitMessage compiled limit accumulated.length)
    else .ok { progress with pendingPartials := [], pendingRows := 0, accumulated := some accumulated }

def processWithin (progress : Progress ν) (batch : List Row) : Except String (Progress ν) :=
  let progress := progress.addPartial
    (summariseTable cudf operator compiled (batchColumns materialize operator compiled batch))
  match progress.accumulated with
  | none => flushWithin cudf operator compiled limit progress
  | some accumulated =>
    if progress.pendingRows ≥ accumulated.length then flushWithin cudf operator compiled limit progress
    else .ok progress

/-- Every batch is absorbed, then what is left is folded. -/
def absorbWithin (batches : List (List Row)) : Except String (Progress ν) :=
  batches.foldlM (processWithin cudf materialize operator compiled limit) .initial >>=
    flushWithin cudf operator compiled limit

/-- A whole run within a signed limit. The limit the operator was constructed with is not read. -/
def executeWithin (divide : ν → ν → ν) (batches : List (List Row)) : Except String (Table ν) := do
  let compiled ← operator.openOperator
  let progress ← absorbWithin cudf materialize operator compiled limit batches
  finalize cudf operator compiled divide progress

/-- The columns in which the input is counted: the keys, with the argument in a distinct count. -/
def countedColumns (rows : List Row) : Table ν :=
  match compiled.countDistinctArgument with
  | some argument => rows.map (fun row => groupKeys materialize operator row ++ [materialize argument row])
  | none => rows.map (groupKeys materialize operator)

/-- The different keys of the input, or the different rows of key and argument. -/
def distinctGroups (rows : List Row) : Nat :=
  (distinct (countedColumns materialize operator compiled rows)).length

/-- Those of them that grouping reports: it leaves out the keys with a null, a distinct count keeps
every row. -/
def reportedGroups (rows : List Row) : Nat :=
  match compiled.countDistinctArgument with
  | some _ => distinctGroups materialize operator compiled rows
  | none => (distinct ((countedColumns materialize operator compiled rows).filter keyPresent)).length

end Within

section Runs

variable (cudf : CudfGroupby ν) (materialize : Expression → Row → Cell ν) (divide : ν → ν → ν)
variable {operator : HashAggregateOperator} {compiled : Compiled} {limit : Int32}

/-- A summary of the input has the reported groups as its rows. -/
theorem length_summary (rows : List Row) :
    ((summaryOf operator compiled).summarise (batchColumns materialize operator compiled rows)).length =
      reportedGroups materialize operator compiled rows := by
  unfold summaryOf reportedGroups distinctGroups countedColumns batchColumns
  cases mode : compiled.countDistinctArgument with
  | some argument => rfl
  | none =>
    have width (row : Row) : (groupKeys materialize operator row).length = operator.groupBy.length :=
      List.length_map _
    have keys : (((buildCombinedColumns materialize operator compiled rows).map
        (splitRow operator.groupBy.length)).filter (fun entry => keyPresent entry.1)).map Prod.fst =
          (rows.map (groupKeys materialize operator)).filter keyPresent := by
      rw [buildCombinedColumns, List.map_map, List.filter_map, List.map_map, List.filter_map]
      have cut (row : Row) (values : List (Cell ν)) :
          (groupKeys materialize operator row ++ values).take operator.groupBy.length =
            groupKeys materialize operator row := by
        rw [← width row, List.take_left]
      simp only [Function.comp_def, splitRow, cut]
    simp only [groupSummary, List.length_map]
    rw [groupsOf, ← List.length_map Prod.fst, keys_groupEntries, keys]

omit [AddCommMonoidWithOne ν] in
theorem reportedGroups_le (rows : List Row) :
    reportedGroups materialize operator compiled rows ≤ distinctGroups materialize operator compiled rows := by
  unfold reportedGroups distinctGroups
  cases compiled.countDistinctArgument with
  | some argument => exact le_refl _
  | none => exact length_distinct_le (fun key member => List.mem_of_mem_filter member)

omit [AddCommMonoidWithOne ν] in
theorem distinctGroups_nil : distinctGroups materialize operator compiled [] = 0 := by
  unfold distinctGroups countedColumns
  cases compiled.countDistinctArgument <;> rfl

/-! ## A limit that is not negative -/

/-- The operator with a natural number for its limit. -/
def withLimit (operator : HashAggregateOperator) (limit : Int32) : HashAggregateOperator :=
  { operator with maxDistinctKeys := limit.toInt.toNat }

theorem toString_natural {value : Int} (natural : 0 ≤ value) : toString value = toString value.toNat := by
  cases value with
  | ofNat amount => rfl
  | negSucc amount => exact absurd natural (by omega)

theorem limitMessage_natural (natural : 0 ≤ limit.toInt) (rows : Nat) :
    limitMessage compiled limit rows = distinctKeysMessage (withLimit operator limit) compiled rows := by
  unfold limitMessage distinctKeysMessage
  rw [toString_natural natural]
  rfl

theorem flushWithin_natural (natural : 0 ≤ limit.toInt) (progress : Progress ν) :
    flushWithin cudf operator compiled limit progress =
      flushPending cudf (withLimit operator limit) compiled progress := by
  have fold : foldPending cudf (withLimit operator limit) compiled progress =
      foldPending cudf operator compiled progress := rfl
  unfold flushWithin flushPending
  have message (rows : Nat) : limitMessage compiled limit rows =
      distinctKeysMessage (withLimit operator limit) compiled rows := limitMessage_natural natural rows
  simp only [fold, message]
  have same : ((foldPending cudf operator compiled progress).length : Int) > limit.toInt ↔
      (foldPending cudf operator compiled progress).length > (withLimit operator limit).maxDistinctKeys := by
    simp only [withLimit]
    omega
  simp only [same]

theorem absorbWithin_natural (natural : 0 ≤ limit.toInt) (batches : List (List Row)) :
    absorbWithin cudf materialize operator compiled limit batches =
      (batches.foldlM (processBatch cudf materialize (withLimit operator limit) compiled) .initial >>=
        flushPending cudf (withLimit operator limit) compiled) := by
  have flush : flushWithin cudf operator compiled limit =
      flushPending cudf (withLimit operator limit) compiled :=
    funext (flushWithin_natural cudf natural)
  have process : processWithin cudf materialize operator compiled limit =
      processBatch cudf materialize (withLimit operator limit) compiled := by
    funext progress batch
    unfold processWithin processBatch
    rw [flush]
    rfl
  rw [absorbWithin, flush, process]

/-! ## Runs -/

/-- A fold of anything is over a negative limit. -/
theorem absorbWithin_negative (negative : limit.toInt < 0) (batch : List Row) (batches : List (List Row)) :
    ∃ rows, absorbWithin cudf materialize operator compiled limit (batch :: batches) =
      .error (limitMessage compiled limit rows) := by
  have flush (progress : Progress ν) (waiting : progress.pendingPartials.isEmpty = false) :
      ∃ rows, flushWithin cudf operator compiled limit progress = .error (limitMessage compiled limit rows) := by
    refine ⟨(foldPending cudf operator compiled progress).length, ?_⟩
    unfold flushWithin
    rw [waiting, if_neg (by decide)]
    exact if_pos (by omega)
  have first : (Progress.addPartial .initial (summariseTable cudf operator compiled
      (batchColumns materialize operator compiled batch))).pendingPartials.isEmpty = false := rfl
  obtain ⟨rows, failed⟩ := flush _ first
  refine ⟨rows, ?_⟩
  have process : processWithin cudf materialize operator compiled limit .initial batch =
      .error (limitMessage compiled limit rows) := failed
  rw [absorbWithin, List.foldlM_cons, process]
  rfl

/-- The batches are absorbed, and finishing succeeds, or the limit is met: there is a batch, and
the rows that must be held are over it. -/
theorem absorbWithin_cases (batches : List (List Row)) :
    (∃ progress result, absorbWithin cudf materialize operator compiled limit batches = .ok progress ∧
        finalize cudf operator compiled divide progress = .ok result ∧
        (batches = [] ∨ (reportedGroups materialize operator compiled batches.flatten : Int) ≤ limit.toInt)) ∨
      (∃ rows, absorbWithin cudf materialize operator compiled limit batches =
        .error (limitMessage compiled limit rows)) ∧
        batches ≠ [] ∧ limit.toInt < reportedGroups materialize operator compiled batches.flatten := by
  cases batches with
  | nil => exact .inl ⟨.initial, [], rfl, rfl, .inl rfl⟩
  | cons batch batches =>
    rcases lt_or_ge limit.toInt 0 with negative | natural
    · exact .inr ⟨absorbWithin_negative cudf materialize negative batch batches, List.cons_ne_nil _ _, by omega⟩
    have ran := run_absorbed cudf materialize (withLimit operator limit) compiled (batch :: batches)
    have held : ((summaryOf (withLimit operator limit) compiled).summarise
        (batchColumns materialize (withLimit operator limit) compiled (batch :: batches).flatten)).length =
        reportedGroups materialize (withLimit operator limit) compiled (batch :: batches).flatten :=
      length_summary materialize (batch :: batches).flatten
    simp only [held, ← absorbWithin_natural cudf materialize natural] at ran
    have same : reportedGroups materialize (withLimit operator limit) compiled (batch :: batches).flatten =
        reportedGroups materialize operator compiled (batch :: batches).flatten := rfl
    have bound : (withLimit operator limit).maxDistinctKeys = limit.toInt.toNat := rfl
    rw [same, bound] at ran
    rcases ran with ⟨final, finished, outcome⟩ | ⟨exceeds, rows, failed⟩
    · rcases outcome with ⟨_, none⟩ | ⟨seen, table, found, summary, within⟩
      · exact absurd none (List.cons_ne_nil _ _)
      · have length := summary.length_eq
        rw [held, same] at length
        have result : ∃ result, finalize cudf operator compiled divide final = .ok result := by
          simp only [finalize, seen, found]
          cases compiled.countDistinctArgument with
          | some argument => exact ⟨_, rfl⟩
          | none => exact ⟨_, rfl⟩
        obtain ⟨result, isResult⟩ := result
        exact .inl ⟨final, result, finished, isResult, .inr (by omega)⟩
    · rw [← limitMessage_natural natural] at failed
      exact .inr ⟨⟨rows, failed⟩, List.cons_ne_nil _ _, by omega⟩

/-- The limit is met exactly when there is a batch and the rows that must be held are over it,
however the rows are cut into batches and whenever the partial results are folded. -/
theorem executeWithin_raises_iff (opened : operator.openOperator = .ok compiled) (batches : List (List Row)) :
    (∃ rows, executeWithin cudf materialize operator limit divide batches =
        .error (limitMessage compiled limit rows)) ↔
      batches ≠ [] ∧ limit.toInt < reportedGroups materialize operator compiled batches.flatten := by
  have whole : executeWithin cudf materialize operator limit divide batches =
      absorbWithin cudf materialize operator compiled limit batches >>=
        finalize cudf operator compiled divide := by
    rw [executeWithin, opened]
    rfl
  rw [whole]
  rcases absorbWithin_cases cudf materialize divide batches with
    ⟨progress, result, absorbed, finished, within⟩ | ⟨⟨rows, failed⟩, exceeds⟩
  · have succeeds : (absorbWithin cudf materialize operator compiled limit batches >>=
        finalize cudf operator compiled divide) = .ok result := by
      rw [absorbed]
      exact finished
    rw [succeeds]
    constructor
    · rintro ⟨rows, failed⟩
      cases failed
    · rintro ⟨some, exceeds⟩
      rcases within with none | within
      · exact absurd none some
      · omega
  · rw [failed]
    exact ⟨fun _ => exceeds, fun _ => ⟨rows, rfl⟩⟩

end Runs

/-! ## The configured limit -/

section Configured

variable (cudf : CudfGroupby ν) (materialize : Expression → Row → Cell ν) (divide : ν → ν → ν)
variable {operator : HashAggregateOperator} {compiled : Compiled} {configured : UInt64}

/-- When the configured limit is the one that is enforced. Below 2^31 it must not lie between the
groups that are reported and all groups. From 2^31 on the value after the cast must separate the
reported groups as the configured one separates all groups. -/
def CarriesOver (operator : HashAggregateOperator) (compiled : Compiled) (configured : UInt64)
    (batches : List (List Row)) : Prop :=
  let reported := reportedGroups materialize operator compiled batches.flatten
  let all := distinctGroups materialize operator compiled batches.flatten
  if configured.toNat < 2 ^ 31 then configured.toNat < reported ∨ all ≤ configured.toNat
  else if all ≤ configured.toNat then batches = [] ∨ reported ≤ (builtLimit configured).toInt
  else (builtLimit configured).toInt < reported

/-- The error is raised exactly when the different groups of the input exceed the configured limit,
just where the limit carries over. -/
theorem limit_exact_iff (opened : operator.openOperator = .ok compiled) (isSet : configured ≠ 0)
    (batches : List (List Row)) :
    ((∃ rows, executeWithin cudf materialize operator (builtLimit configured) divide batches =
        .error (limitMessage compiled (builtLimit configured) rows)) ↔
      configured.toNat < distinctGroups materialize operator compiled batches.flatten) ↔
    CarriesOver materialize operator compiled configured batches := by
  rw [executeWithin_raises_iff cudf materialize divide opened]
  have fewer : reportedGroups materialize operator compiled batches.flatten ≤
      distinctGroups materialize operator compiled batches.flatten := reportedGroups_le materialize batches.flatten
  have empty : batches = [] → distinctGroups materialize operator compiled batches.flatten = 0 := by
    rintro rfl
    exact distinctGroups_nil materialize
  unfold CarriesOver
  by_cases small : configured.toNat < 2 ^ 31
  · rw [if_pos small, builtLimit_small isSet small]
    by_cases none : batches = []
    · have := empty none
      simp only [none, ne_eq, not_true_eq_false, false_and, false_iff] at this ⊢
      omega
    · simp only [ne_eq, none, not_false_eq_true, true_and]
      omega
  · rw [if_neg small]
    by_cases none : batches = []
    · have := empty none
      have within : distinctGroups materialize operator compiled batches.flatten ≤ configured.toNat := by omega
      rw [if_pos within]
      simp only [none, ne_eq, not_true_eq_false, false_and, false_iff, true_or, iff_true] at within ⊢
      omega
    · simp only [ne_eq, none, not_false_eq_true, true_and, false_or]
      split <;> omega

end Configured

/-- The rows of each region. -/
def countedRegions : HashAggregateOperator where
  groupBy := [⟨.column "region" 0 ⟨.int64, true, none, none⟩, "region"⟩]
  aggregates := [⟨.countStar ⟨.int64, false, none, none⟩, "rows"⟩]
  maxDistinctKeys := 75000000

def countedCompiled : Compiled :=
  ⟨[⟨none, .countStarOnes, .sum⟩], [⟨.direct, true⟩], none⟩

def oneRegion : List (List Row) :=
  [[[.int 1]], [[.int 1]]]

theorem limit_exact_one_region :
    ((∃ rows, executeWithin (.inOrder Int) integerCell countedRegions (builtLimit 1) (· / ·) oneRegion =
        .error (limitMessage countedCompiled (builtLimit 1) rows)) ↔
      (1 : UInt64).toNat < distinctGroups integerCell countedRegions countedCompiled oneRegion.flatten) ↔
    CarriesOver integerCell countedRegions countedCompiled 1 oneRegion := by
  have opened : countedRegions.openOperator = .ok countedCompiled := rfl
  exact limit_exact_iff (.inOrder Int) integerCell (· / ·) opened (by decide) oneRegion

/-- A limit of 2^32 is zero after the cast, and one region is too many. -/
theorem limit_inexact_one_region :
    ¬ ((∃ rows, executeWithin (.inOrder Int) integerCell countedRegions (builtLimit 4294967296) (· / ·)
          oneRegion = .error (limitMessage countedCompiled (builtLimit 4294967296) rows)) ↔
        (4294967296 : UInt64).toNat <
          distinctGroups integerCell countedRegions countedCompiled oneRegion.flatten) := by
  intro exact
  have exceeds := exact.mp ⟨1, rfl⟩
  revert exceeds
  decide

-- A region that is null is not reported, so the limit of one does not stop two regions.
example : ¬ CarriesOver integerCell countedRegions countedCompiled 1 [[[.int 1]], [[.null]]] := by
  unfold CarriesOver
  decide

end KernelLake.GroupLimits
