import KernelLake.LogicalPlans
import KernelLake.Evaluation
import KernelLake.Library.Pulling
import KernelLake.Library.Results
import KernelLake.Library.StableSort

/-!
Operators of the GPU backend that only cut and order what their child hands out.

Each resumes where its last call of `next` returned: in the middle of a batch that is too large, or with a number
of rows still to let through. A sort is over after its first batch. Where a limit stands directly on a sort, the
two are built as one sort that gathers the first rows only.
-/

namespace KernelLake.BatchOperators

open KernelLake.Types KernelLake.Expressions KernelLake.Evaluation KernelLake.LogicalPlans
open KernelLake.Library.Pulling KernelLake.Library.Results KernelLake.Library.StableSort

/-! ## Batches of bounded size -/

section BatchSizeLimit

variable {σ ρ ε : Type}

/-- A batch that was too large, and how much of it was handed out. -/
structure BatchSizeLimitState (σ ρ : Type) where
  child : σ
  pending : Option (List ρ)
  pendingOffset : Nat

/-- The next chunk of a batch that was too large. -/
def nextChunk (maxRows : Nat) (child : σ) (pending : List ρ) (pendingOffset : Nat) :
    Option (List ρ) × BatchSizeLimitState σ ρ :=
  let chunkRows := min maxRows (pending.length - pendingOffset)
  let chunk := (pending.drop pendingOffset).take chunkRows
  let pendingOffset := pendingOffset + chunkRows
  (some chunk,
    if pending.length ≤ pendingOffset then ⟨child, none, 0⟩ else ⟨child, some pending, pendingOffset⟩)

def BatchSizeLimitOperator.next (childNext : σ → Except ε (Option (List ρ) × σ)) (maxRows : Nat)
    (state : BatchSizeLimitState σ ρ) : Except ε (Option (List ρ) × BatchSizeLimitState σ ρ) :=
  match state.pending with
  | some pending => .ok (nextChunk maxRows state.child pending state.pendingOffset)
  | none =>
    match childNext state.child with
    | .error failure => .error failure
    | .ok (none, child) => .ok (none, { state with child })
    | .ok (some batch, child) =>
      if batch.length ≤ maxRows then .ok (some batch, { state with child })
      else .ok (nextChunk maxRows child batch 0)

end BatchSizeLimit

/-! ## A limited number of rows -/

/-- A limit as constructed: a negative one is refused. -/
structure LimitOperator where
  limit : Int
  nonnegative : 0 ≤ limit

/-- The constructor. -/
def LimitOperator.create (limit : Int) : Except String LimitOperator :=
  if nonnegative : 0 ≤ limit then .ok ⟨limit, nonnegative⟩ else .error "LIMIT must be non-negative"

section Limit

variable {σ ρ ε : Type}

structure LimitState (σ : Type) where
  child : σ
  remaining : Int

def LimitOperator.openOperator (operator : LimitOperator) (child : σ) : LimitState σ :=
  ⟨child, operator.limit⟩

def LimitOperator.next (childNext : σ → Except ε (Option (List ρ) × σ)) (state : LimitState σ) :
    Except ε (Option (List ρ) × LimitState σ) :=
  if state.remaining ≤ 0 then .ok (none, state)
  else
    match childNext state.child with
    | .error failure => .error failure
    | .ok (none, child) => .ok (none, { state with child })
    | .ok (some batch, child) =>
      if (batch.length : Int) ≤ state.remaining then
        .ok (some batch, ⟨child, state.remaining - batch.length⟩)
      else .ok (some (batch.take state.remaining.toNat), ⟨child, 0⟩)

end Limit

/-! ## Sorting -/

inductive Order
  | ascending | descending

inductive NullOrder
  | after | before

/-- A plain column is read directly, any other key is compiled and computed. -/
structure CompiledKey where
  sourceColumnIndex : Option Nat
  expr : Expression
  ascending : Bool

inductive Failure
  | unsupported (expr : Expression)
  | childFailed
  | tooManyRows
  | notComputed (expr : Expression)

/-- What a sort uses of the library, and the order of keys that the library sorts by. -/
structure CudfSort where
  compile : Expression → Except Failure Unit
  concatenate : List (List Row) → Except Failure (List Row)
  computeColumn : Expression → List Row → Except Failure (List Value)
  before : List Order → List NullOrder → List Value → List Value → Bool
  concatenate_rows : ∀ batches rows, concatenate batches = .ok rows → rows = batches.flatten

/-- A function that finds the positions of rows in order of their keys. -/
abbrev SortedOrder := List (List Value) → List Order → List NullOrder → List Nat

/-- The contract of `cudf::stable_sorted_order`. -/
def StableSortedOrder (cudf : CudfSort) (sortedOrder : SortedOrder) : Prop :=
  ∀ keys orders nullOrders,
    StableOrder (fun left right => cudf.before orders nullOrders left right = true) (keys.getD · []) keys.length
      (sortedOrder keys orders nullOrders)

section Sorting

variable {σ : Type} (cudf : CudfSort) (sortedOrder : SortedOrder)

def compileKey (key : SortKey) : Except Failure CompiledKey :=
  match key.expr with
  | .column _ index _ => .ok ⟨some index, key.expr, key.ascending⟩
  | _ => do
    cudf.compile key.expr
    .ok ⟨none, key.expr, key.ascending⟩

/-- The cells of one key, row by row. -/
def keyColumn (combined : List Row) (key : CompiledKey) : Except Failure (List Value) :=
  match key.sourceColumnIndex with
  | some index => .ok (combined.map (fun row => row.getD index .raised))
  | none => cudf.computeColumn key.expr combined

def order (key : CompiledKey) : Order :=
  if key.ascending then .ascending else .descending

def nullOrder (key : CompiledKey) : NullOrder :=
  if key.ascending then .after else .before

/-- The keys of each row. -/
def keyRows (columns : List (List Value)) (count : Nat) : List (List Value) :=
  (List.range count).map (fun row => columns.map (fun column => column.getD row .raised))

def gatherRows (rows : List Row) (indices : List Nat) : List Row :=
  indices.map (fun index => rows.getD index [])

/-- The positions that a sort gathers: with a limit, the first ones only. -/
def gatherIndices (limit : Option Int) (sortedIndices : List Nat) : List Nat :=
  match limit with
  | none => sortedIndices
  | some limit => sortedIndices.take (min limit sortedIndices.length).toNat

structure SortState (σ : Type) where
  child : σ
  produced : Bool

/-- `SortOperator::open` -/
def SortOperator.openOperator (keys : List SortKey) (child : σ) :
    Except Failure (List CompiledKey × SortState σ) := do
  let compiledKeys ← keys.mapM (compileKey cudf)
  .ok (compiledKeys, ⟨child, false⟩)

/-- The rows of all batches in order. -/
def sortBatches (keys : List CompiledKey) (limit : Option Int) (batches : List (List Row)) :
    Except Failure (List Row) := do
  let combined ← cudf.concatenate batches
  let columns ← keys.mapM (keyColumn cudf combined)
  let sortedIndices := sortedOrder (keyRows columns combined.length) (keys.map order) (keys.map nullOrder)
  .ok (gatherRows combined (gatherIndices limit sortedIndices))

/-- The one batch of a sort. The fuel bounds the number of batches of the child, which is not asked again. -/
def sortedBatch (keys : List CompiledKey) (limit : Option Int)
    (childNext : σ → Except Failure (Option (List Row) × σ)) (fuel : Nat) (child : σ) :
    Except Failure (Option (List Row)) :=
  if limit.any (· ≤ 0) then .ok none
  else
    match drain childNext fuel child with
    | none => .error .childFailed
    | some batches =>
      if batches.isEmpty then .ok none else (sortBatches cudf sortedOrder keys limit batches).map some

def SortOperator.next (keys : List CompiledKey) (limit : Option Int)
    (childNext : σ → Except Failure (Option (List Row) × σ)) (fuel : Nat) (state : SortState σ) :
    Except Failure (Option (List Row) × SortState σ) :=
  if state.produced then .ok (none, state)
  else
    (sortedBatch cudf sortedOrder keys limit childNext fuel state.child).map
      (fun batch => (batch, { state with produced := true }))

end Sorting

/-! ## What the operators hand out -/

section BatchSizes

variable {σ ρ ε : Type} {childNext : σ → Except ε (Option (List ρ) × σ)} {maxRows : Nat}

/-- Batches of at most so many rows that have the given rows between them. -/
structure Chunks (maxRows : Nat) (rows : List ρ) (batches : List (List ρ)) : Prop where
  bounded : ∀ batch ∈ batches, batch.length ≤ maxRows
  whole : batches.flatten = rows

theorem next_pending (child : σ) (pending : List ρ) (pendingOffset : Nat) :
    BatchSizeLimitOperator.next childNext maxRows ⟨child, some pending, pendingOffset⟩ =
      .ok (some ((pending.drop pendingOffset).take (min maxRows (pending.length - pendingOffset))),
        if pending.length ≤ pendingOffset + min maxRows (pending.length - pendingOffset) then ⟨child, none, 0⟩
        else ⟨child, some pending, pendingOffset + min maxRows (pending.length - pendingOffset)⟩) :=
  rfl

/-- What is left of a pending batch comes before what the child has still to deliver. -/
theorem delivers_pending (positive : 0 < maxRows) {child : σ} {rest : List ρ} {later : List (List ρ)}
    (deliversLater : Delivers (BatchSizeLimitOperator.next childNext maxRows) ⟨child, none, 0⟩ later)
    (laterChunks : Chunks maxRows rest later) (pending : List ρ) (pendingOffset : Nat)
    (within : pendingOffset < pending.length) :
    ∃ batches,
      Delivers (BatchSizeLimitOperator.next childNext maxRows) ⟨child, some pending, pendingOffset⟩ batches ∧
      Chunks maxRows (pending.drop pendingOffset ++ rest) batches := by
  have chunkRows : ((pending.drop pendingOffset).take (min maxRows (pending.length - pendingOffset))).length =
      min maxRows (pending.length - pendingOffset) := by
    rw [List.length_take, List.length_drop]
    omega
  have parted : (pending.drop pendingOffset).take (min maxRows (pending.length - pendingOffset)) ++
      pending.drop (pendingOffset + min maxRows (pending.length - pendingOffset)) = pending.drop pendingOffset := by
    rw [← List.drop_drop, List.take_append_drop]
  by_cases last : pending.length ≤ pendingOffset + min maxRows (pending.length - pendingOffset)
  · have pulled := @next_pending _ _ _ childNext maxRows child pending pendingOffset
    rw [if_pos last] at pulled
    refine ⟨_, .more pulled deliversLater, ?_, ?_⟩
    · exact List.forall_mem_cons.mpr ⟨chunkRows.trans_le (min_le_left _ _), laterChunks.bounded⟩
    · rw [List.drop_eq_nil_of_le last, List.append_nil] at parted
      rw [List.flatten_cons, laterChunks.whole, parted]
  · have next := delivers_pending positive deliversLater laterChunks pending
      (pendingOffset + min maxRows (pending.length - pendingOffset)) (Nat.lt_of_not_le last)
    obtain ⟨batches, delivers, chunks⟩ := next
    have pulled := @next_pending _ _ _ childNext maxRows child pending pendingOffset
    rw [if_neg last] at pulled
    refine ⟨_, .more pulled delivers, ?_, ?_⟩
    · exact List.forall_mem_cons.mpr ⟨chunkRows.trans_le (min_le_left _ _), chunks.bounded⟩
    · rw [List.flatten_cons, chunks.whole, ← List.append_assoc, parted]
termination_by pending.length - pendingOffset

/-- A limited operator hands out finitely many batches, none too large, with the rows of its child. -/
theorem batchSizeLimit_delivers (positive : 0 < maxRows) {child : σ} {input : List (List ρ)}
    (delivers : Delivers childNext child input) :
    ∃ batches, Delivers (BatchSizeLimitOperator.next childNext maxRows) ⟨child, none, 0⟩ batches ∧
      Chunks maxRows input.flatten batches := by
  induction delivers with
  | @done state after exhausted =>
    have pulled : BatchSizeLimitOperator.next childNext maxRows ⟨state, none, 0⟩ =
        .ok (none, ⟨after, none, 0⟩) := by
      simp only [BatchSizeLimitOperator.next, exhausted]
    exact ⟨[], .done pulled, List.forall_mem_nil _, rfl⟩
  | @more state after batch batches pulled _ hypothesis =>
    obtain ⟨later, deliversLater, laterChunks⟩ := hypothesis
    by_cases small : batch.length ≤ maxRows
    · refine ⟨batch :: later, .more ?_ deliversLater, ?_, ?_⟩
      · simp only [BatchSizeLimitOperator.next, pulled, if_pos small]
      · exact List.forall_mem_cons.mpr ⟨small, laterChunks.bounded⟩
      · rw [List.flatten_cons, List.flatten_cons, laterChunks.whole]
    · obtain ⟨chunks, deliversChunks, areChunks⟩ :=
        delivers_pending positive deliversLater laterChunks batch 0 (by omega)
      refine ⟨chunks, deliversChunks.congr ?_, areChunks⟩
      simp only [BatchSizeLimitOperator.next, pulled, if_neg small]

end BatchSizes

section Limits

variable {σ ρ ε : Type} {childNext : σ → Except ε (Option (List ρ) × σ)}

/-- A limited operator hands out the first rows of its child. -/
theorem limit_delivers {child : σ} {input : List (List ρ)} (delivers : Delivers childNext child input)
    (remaining : Int) :
    ∃ batches, Delivers (LimitOperator.next childNext) ⟨child, remaining⟩ batches ∧
      batches.flatten = input.flatten.take remaining.toNat := by
  induction delivers generalizing remaining with
  | @done state after exhausted =>
    by_cases spent : remaining ≤ 0
    · exact ⟨[], .done (if_pos spent), by rw [List.flatten_nil, List.take_nil]⟩
    · have pulled : LimitOperator.next childNext ⟨state, remaining⟩ = .ok (none, ⟨after, remaining⟩) := by
        simp only [LimitOperator.next, if_neg spent, exhausted]
      exact ⟨[], .done pulled, by rw [List.flatten_nil, List.take_nil]⟩
  | @more state after batch batches pulled _ hypothesis =>
    by_cases spent : remaining ≤ 0
    · refine ⟨[], .done (if_pos spent), ?_⟩
      rw [Int.toNat_of_nonpos spent, List.take_zero, List.flatten_nil]
    · by_cases whole : (batch.length : Int) ≤ remaining
      · obtain ⟨later, deliversLater, rest⟩ := hypothesis (remaining - batch.length)
        have next : LimitOperator.next childNext ⟨state, remaining⟩ =
            .ok (some batch, ⟨after, remaining - batch.length⟩) := by
          simp only [LimitOperator.next, if_neg spent, pulled, if_pos whole]
        refine ⟨batch :: later, .more next deliversLater, ?_⟩
        have count : remaining.toNat = batch.length + (remaining - batch.length).toNat := by omega
        rw [List.flatten_cons, List.flatten_cons, rest, count, List.take_length_add_append]
      · have next : LimitOperator.next childNext ⟨state, remaining⟩ =
            .ok (some (batch.take remaining.toNat), ⟨after, 0⟩) := by
          simp only [LimitOperator.next, if_neg spent, pulled, if_neg whole]
        refine ⟨[batch.take remaining.toNat], .more next (.done (if_pos (Int.le_refl 0))), ?_⟩
        rw [List.flatten_singleton, List.flatten_cons, List.take_append_of_le_length (by omega)]

/-- What a limit lets through of an operator with one batch. -/
theorem limit_single {child after last : σ} {only : List ρ} (pulled : childNext child = .ok (some only, after))
    (exhausted : childNext after = .ok (none, last)) {remaining : Int} (more : 0 < remaining) :
    Delivers (LimitOperator.next childNext) ⟨child, remaining⟩ [only.take remaining.toNat] := by
  have spent : ¬ remaining ≤ 0 := by omega
  by_cases whole : (only.length : Int) ≤ remaining
  · have next : LimitOperator.next childNext ⟨child, remaining⟩ =
        .ok (some (only.take remaining.toNat), ⟨after, remaining - only.length⟩) := by
      rw [List.take_of_length_le (by omega)]
      simp only [LimitOperator.next, if_neg spent, pulled, if_pos whole]
    by_cases met : remaining - only.length ≤ 0
    · exact .more next (.done (if_pos met))
    · have ended : LimitOperator.next childNext ⟨after, remaining - only.length⟩ =
          .ok (none, ⟨last, remaining - only.length⟩) := by
        simp only [LimitOperator.next, if_neg met, exhausted]
      exact .more next (.done ended)
  · have next : LimitOperator.next childNext ⟨child, remaining⟩ =
        .ok (some (only.take remaining.toNat), ⟨after, 0⟩) := by
      simp only [LimitOperator.next, if_neg spent, pulled, if_neg whole]
    exact .more next (.done (if_pos (Int.le_refl 0)))

end Limits

section Sorts

variable {σ : Type} {cudf : CudfSort} {sortedOrder sortedOrder' : SortedOrder} {keys : List CompiledKey}
  {childNext : σ → Except Failure (Option (List Row) × σ)} {fuel : Nat} {limit : Int}

/-- Gathering the first positions only gives the first rows. -/
theorem gatherRows_limit (rows : List Row) (indices : List Nat) (nonnegative : 0 ≤ limit) :
    gatherRows rows (gatherIndices (some limit) indices) =
      (gatherRows rows (gatherIndices none indices)).take limit.toNat := by
  have count : (min limit indices.length).toNat = min limit.toNat indices.length := by omega
  rw [gatherRows, gatherRows, gatherIndices, gatherIndices, count, ← List.map_take, ← List.take_take,
    List.take_length]

/-- There is one function that sorts stably. -/
theorem stableSortedOrder_unique (stable : StableSortedOrder cudf sortedOrder)
    (stable' : StableSortedOrder cudf sortedOrder') : sortedOrder = sortedOrder' := by
  funext keys orders nullOrders
  exact (stable keys orders nullOrders).unique (stable' keys orders nullOrders)

theorem sortBatches_limit (nonnegative : 0 ≤ limit) (batches : List (List Row)) :
    sortBatches cudf sortedOrder keys (some limit) batches =
      (sortBatches cudf sortedOrder keys none batches).map (·.take limit.toNat) := by
  unfold sortBatches
  cases cudf.concatenate batches with
  | error failure => rfl
  | ok combined =>
    cases columns : keys.mapM (keyColumn cudf combined) with
    | error failure => simp only [columns, bind, Except.bind, Except.map]
    | ok columns' => simp only [columns, bind, Except.bind, Except.map, gatherRows_limit _ _ nonnegative]

theorem sortedBatch_limit (positive : 0 < limit) (child : σ) :
    sortedBatch cudf sortedOrder keys (some limit) childNext fuel child =
      (sortedBatch cudf sortedOrder keys none childNext fuel child).map (Option.map (·.take limit.toNat)) := by
  have more : ¬ limit ≤ 0 := by omega
  simp only [sortedBatch, Option.any_some, Option.any_none, more, decide_false, Bool.false_eq_true, if_false]
  cases drain childNext fuel child with
  | none => rfl
  | some batches =>
    simp only [sortBatches_limit (show 0 ≤ limit by omega)]
    split
    · rfl
    · cases sortBatches cudf sortedOrder keys none batches <;> rfl

theorem sort_next_first (limit : Option Int) (child : σ) :
    SortOperator.next cudf sortedOrder keys limit childNext fuel ⟨child, false⟩ =
      (sortedBatch cudf sortedOrder keys limit childNext fuel child).map (fun batch => (batch, ⟨child, true⟩)) :=
  rfl

theorem sort_next_later (limit : Option Int) (child : σ) :
    SortOperator.next cudf sortedOrder keys limit childNext fuel ⟨child, true⟩ = .ok (none, ⟨child, true⟩) :=
  rfl

/-- A sort built with a limit hands out what the limit lets through of a sort without. -/
theorem fused_delivers_iff (child : σ) (batches : List (List Row)) :
    Delivers (SortOperator.next cudf sortedOrder keys (some limit) childNext fuel) ⟨child, false⟩ batches ↔
      Delivers (LimitOperator.next (SortOperator.next cudf sortedOrder keys none childNext fuel))
        ⟨⟨child, false⟩, limit⟩ batches := by
  by_cases spent : limit ≤ 0
  · have fused : SortOperator.next cudf sortedOrder keys (some limit) childNext fuel ⟨child, false⟩ =
        .ok (none, ⟨child, true⟩) := by
      simp [sort_next_first, sortedBatch, spent, Except.map]
    have unfused : LimitOperator.next (SortOperator.next cudf sortedOrder keys none childNext fuel)
        ⟨⟨child, false⟩, limit⟩ = .ok (none, ⟨⟨child, false⟩, limit⟩) := if_pos spent
    rw [delivers_of_exhausted fused, delivers_of_exhausted unfused]
  · have more : 0 < limit := by omega
    have fused := @sort_next_first σ cudf sortedOrder keys childNext fuel (some limit) child
    have unfused := @sort_next_first σ cudf sortedOrder keys childNext fuel none child
    rw [sortedBatch_limit more] at fused
    cases ran : sortedBatch cudf sortedOrder keys none childNext fuel child with
    | error failure =>
      rw [ran] at fused unfused
      have failed : LimitOperator.next (SortOperator.next cudf sortedOrder keys none childNext fuel)
          ⟨⟨child, false⟩, limit⟩ = .error failure := by
        simp only [LimitOperator.next, if_neg spent, unfused, Except.map]
      exact iff_of_false (delivers_of_failed fused) (delivers_of_failed failed)
    | ok only =>
      rw [ran] at fused unfused
      cases only with
      | none =>
        have ended : LimitOperator.next (SortOperator.next cudf sortedOrder keys none childNext fuel)
            ⟨⟨child, false⟩, limit⟩ = .ok (none, ⟨⟨child, true⟩, limit⟩) := by
          simp only [LimitOperator.next, if_neg spent, unfused, Except.map]
        rw [delivers_of_exhausted fused, delivers_of_exhausted ended]
      | some rows =>
        have deliversFused := Delivers.more fused (.done (sort_next_later (some limit) child))
        have deliversUnfused := limit_single unfused (sort_next_later none child) more
        exact ⟨fun delivers => deliversFused.unique delivers ▸ deliversUnfused,
          fun delivers => deliversUnfused.unique delivers ▸ deliversFused⟩

/-- Sorted rows of nothing. -/
theorem sortBatches_nil (stable : StableSortedOrder cudf sortedOrder) {rows : List Row}
    (sorted : sortBatches cudf sortedOrder keys none [] = .ok rows) : rows = [] := by
  simp only [sortBatches, bind_eq_ok] at sorted
  obtain ⟨combined, concatenated, columns, _, gathered⟩ := sorted
  obtain rfl := cudf.concatenate_rows _ _ concatenated
  have none : sortedOrder (keyRows columns 0) (keys.map order) (keys.map nullOrder) = [] :=
    List.perm_nil.mp (stable (keyRows columns 0) _ _).all
  rw [← Except.ok.inj gathered, List.flatten_nil, List.length_nil, none]
  rfl

/-- A sort of finitely many batches hands out their sorted rows. -/
theorem sort_delivers (stable : StableSortedOrder cudf sortedOrder) {child : σ} {input : List (List Row)}
    (delivers : Delivers childNext child input) (enough : input.length < fuel) {rows : List Row}
    (sorted : sortBatches cudf sortedOrder keys none input = .ok rows) :
    ∃ batches, Delivers (SortOperator.next cudf sortedOrder keys none childNext fuel) ⟨child, false⟩ batches ∧
      batches.flatten = rows := by
  have first := @sort_next_first σ cudf sortedOrder keys childNext fuel none child
  simp only [sortedBatch, Option.any_none, Bool.false_eq_true, if_false, delivers.drain_eq enough] at first
  cases input with
  | nil =>
    obtain rfl := sortBatches_nil stable sorted
    exact ⟨[], .done first, rfl⟩
  | cons batch batches =>
    rw [if_neg (by simp), sorted] at first
    exact ⟨[rows], .more first (.done (sort_next_later none child)), List.flatten_singleton⟩

end Sorts

/-! ## The three operators -/

/-- What a sort hands out once it has opened. -/
def SortDelivers {σ : Type} (cudf : CudfSort) (sortedOrder : SortedOrder) (keys : List SortKey) (limit : Option Int)
    (childNext : σ → Except Failure (Option (List Row) × σ)) (fuel : Nat) (child : σ) (batches : List (List Row)) :
    Prop :=
  ∃ compiledKeys start, SortOperator.openOperator cudf keys child = .ok (compiledKeys, start) ∧
    Delivers (SortOperator.next cudf sortedOrder compiledKeys limit childNext fuel) start batches

/-- What a limit over a sort hands out as two operators; `build` makes one operator of them. -/
def LimitedSortDelivers {σ : Type} (cudf : CudfSort) (sortedOrder : SortedOrder) (keys : List SortKey)
    (limit : LimitOperator) (childNext : σ → Except Failure (Option (List Row) × σ)) (fuel : Nat) (child : σ)
    (batches : List (List Row)) : Prop :=
  ∃ compiledKeys start, SortOperator.openOperator cudf keys child = .ok (compiledKeys, start) ∧
    Delivers (LimitOperator.next (SortOperator.next cudf sortedOrder compiledKeys none childNext fuel))
      (limit.openOperator start) batches

section Operators

variable {σ : Type} {childNext : σ → Except Failure (Option (List Row) × σ)} {child : σ} {input : List (List Row)}

/-- Where the library sorts, a sort with a limit hands out the first of the sorted rows. -/
theorem sortDelivers_limit (delivers : Delivers childNext child input) {cudf : CudfSort} {sortedOrder : SortedOrder}
    (stable : StableSortedOrder cudf sortedOrder) {keys : List SortKey} {compiledKeys : List CompiledKey}
    (compiled : keys.mapM (compileKey cudf) = .ok compiledKeys) {rows : List Row}
    (sorted : sortBatches cudf sortedOrder compiledKeys none input = .ok rows) {fuel : Nat}
    (enough : input.length < fuel) (limit : Int) :
    ∃ batches, SortDelivers cudf sortedOrder keys (some limit) childNext fuel child batches ∧
      batches.flatten = rows.take limit.toNat := by
  obtain ⟨whole, deliversWhole, isWhole⟩ := sort_delivers stable delivers enough sorted
  obtain ⟨batches, deliversLimited, first⟩ := limit_delivers deliversWhole limit
  refine ⟨batches, ⟨compiledKeys, ⟨child, false⟩, ?_, (fused_delivers_iff child batches).mpr deliversLimited⟩, ?_⟩
  · simp only [SortOperator.openOperator, compiled, bind, Except.bind]
  · rw [first, isWhole]

theorem sortDelivers_iff (cudf : CudfSort) (sortedOrder : SortedOrder) (keys : List SortKey) (limit : LimitOperator)
    (fuel : Nat) (batches : List (List Row)) :
    SortDelivers cudf sortedOrder keys (some limit.limit) childNext fuel child batches ↔
      LimitedSortDelivers cudf sortedOrder keys limit childNext fuel child batches := by
  refine exists_congr (fun compiledKeys => exists_congr (fun start => and_congr_right (fun opened => ?_)))
  simp only [SortOperator.openOperator, bind_eq_ok] at opened
  obtain ⟨_, _, built⟩ := opened
  obtain ⟨_, rfl⟩ := Prod.mk.inj (Except.ok.inj built)
  exact fused_delivers_iff child batches

/-- Bounding batches keeps the rows, a limit keeps the first ones, and a sort built with a limit hands out what the
limit over the sort would: the first of the sorted rows, where the library sorts them. -/
theorem operators_preserve_rows (delivers : Delivers childNext child input) :
    (∀ maxRows, 1 ≤ maxRows →
      ∃ batches, Delivers (BatchSizeLimitOperator.next childNext maxRows) ⟨child, none, 0⟩ batches ∧
        Chunks maxRows input.flatten batches) ∧
    (∀ limit : LimitOperator,
      ∃ batches, Delivers (LimitOperator.next childNext) (limit.openOperator child) batches ∧
        batches.flatten = input.flatten.take limit.limit.toNat) ∧
    ∀ (cudf : CudfSort) (sortedOrder sortedOrder' : SortedOrder), StableSortedOrder cudf sortedOrder →
      StableSortedOrder cudf sortedOrder' → ∀ keys fuel (limit : LimitOperator), input.length < fuel →
        (∀ batches, SortDelivers cudf sortedOrder keys (some limit.limit) childNext fuel child batches ↔
          LimitedSortDelivers cudf sortedOrder' keys limit childNext fuel child batches) ∧
        ∀ compiledKeys rows, keys.mapM (compileKey cudf) = .ok compiledKeys →
          sortBatches cudf sortedOrder compiledKeys none input = .ok rows →
            ∃ batches, SortDelivers cudf sortedOrder keys (some limit.limit) childNext fuel child batches ∧
              batches.flatten = rows.take limit.limit.toNat := by
  refine ⟨fun maxRows positive => batchSizeLimit_delivers positive delivers,
    fun limit => limit_delivers delivers limit.limit, ?_⟩
  intro cudf sortedOrder sortedOrder' stable stable' keys fuel limit enough
  obtain rfl := stableSortedOrder_unique stable stable'
  exact ⟨sortDelivers_iff cudf sortedOrder keys limit fuel,
    fun _ _ compiled sorted => sortDelivers_limit delivers stable compiled sorted enough limit.limit⟩

end Operators

/-! ## A source of batches -/

/-- Batches that are handed out one after the other. -/
def sourceNext {β ε : Type} : List β → Except ε (Option β × List β)
  | [] => .ok (none, [])
  | batch :: batches => .ok (some batch, batches)

theorem delivers_source {β ε : Type} (batches : List β) : Delivers (@sourceNext β ε) batches batches := by
  induction batches with
  | nil => exact .done rfl
  | cons batch batches hypothesis => exact .more rfl hypothesis

def firstInt : List Value → Int
  | .int value :: _ => value
  | _ => 0

/-- Ascending integers, sorted by insertion. -/
def CudfSort.insertion : CudfSort where
  compile _ := .ok ()
  concatenate batches := .ok batches.flatten
  computeColumn expr rows := .ok (rows.map (eval expr))
  before _ _ left right := decide (firstInt left ≤ firstInt right)
  concatenate_rows _ _ concatenated := (Except.ok.inj concatenated).symm

def insertionOrder : SortedOrder := fun keys _ _ =>
  (List.range keys.length).insertionSort
    (fun first second => firstInt (keys.getD first []) ≤ firstInt (keys.getD second []))

theorem stable_insertionOrder : StableSortedOrder .insertion insertionOrder := by
  intro keys orders nullOrders
  have total : Std.Total (fun left right : List Value => firstInt left ≤ firstInt right) :=
    ⟨fun left right => Int.le_total (firstInt left) (firstInt right)⟩
  have transitive : IsTrans (List Value) (fun left right => firstInt left ≤ firstInt right) :=
    ⟨fun _ _ _ => Int.le_trans⟩
  have stable := stableOrder_insertionSort (fun left right : List Value => firstInt left ≤ firstInt right)
    (keys.getD · []) keys.length
  simpa only [CudfSort.insertion, insertionOrder, decide_eq_true_eq] using stable

/-- Three batches, one of them empty. -/
def threeBatches : List (List Row) := [[[.int 3], [.int 1]], [], [[.int 2]]]

/-- Sorting by the first column. -/
def byFirst : List SortKey := [⟨.column "number" 0 (int64Type false), true⟩]

theorem operators_preserve_rows_three :
    (∃ batches, Delivers (BatchSizeLimitOperator.next (@sourceNext (List Row) Failure) 1) ⟨threeBatches, none, 0⟩
        batches ∧ Chunks 1 [[.int 3], [.int 1], [.int 2]] batches) ∧
      (∃ batches, Delivers (LimitOperator.next (@sourceNext (List Row) Failure)) ⟨threeBatches, 2⟩ batches ∧
        batches.flatten = [[.int 3], [.int 1]]) ∧
      ∃ batches, LimitedSortDelivers .insertion insertionOrder byFirst ⟨2, by decide⟩ sourceNext 4 threeBatches
          batches ∧ batches.flatten = [[.int 1], [.int 2]] := by
  obtain ⟨bounded, limited, sorted⟩ := operators_preserve_rows (delivers_source threeBatches)
  obtain ⟨same, handedOut⟩ := sorted .insertion insertionOrder insertionOrder stable_insertionOrder
    stable_insertionOrder byFirst 4 ⟨2, by decide⟩ (by decide)
  obtain ⟨batches, delivers, rows⟩ := handedOut [⟨some 0, .column "number" 0 (int64Type false), true⟩]
    [[.int 1], [.int 2], [.int 3]] rfl rfl
  exact ⟨bounded 1 (Nat.le_refl 1), limited ⟨2, by decide⟩, batches, (same batches).mp delivers, rows⟩

end KernelLake.BatchOperators
