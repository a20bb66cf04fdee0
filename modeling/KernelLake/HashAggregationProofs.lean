import KernelLake.HashAggregation
import KernelLake.Library.Results
import Mathlib.Data.List.Forall2

/-!
Grouped aggregation does not depend on how its input is cut into batches.

Whatever has been flushed and whatever still waits, the tables the operator holds are summaries of
consecutive pieces of the columns read so far (`Absorbed`). A flush replaces the pieces by one, so
after the last flush the accumulated table is the summary of everything.
-/

namespace KernelLake.HashAggregationProofs

open KernelLake.Types KernelLake.Expressions KernelLake.Evaluation KernelLake.LogicalPlans
open KernelLake.HashAggregation
open KernelLake.Library.Relations KernelLake.Library.Grouping KernelLake.Library.Results

variable {ν : Type} [AddCommMonoidWithOne ν] [LinearOrder ν]

/-! ## Columns -/

theorem mergeable_column (kind : PhysicalAggKind) :
    Mergeable (aggregateColumn (makePhysicalAggregation kind) : List (Cell ν) → Cell ν) := by
  cases kind with
  | sum => exact mergeable_reducePresent _
  | min => exact mergeable_reducePresent _
  | max => exact mergeable_reducePresent _

theorem getElem?_aggregateColumns (requests : List GroupbyAggregation)
    (rows : List (List (Cell ν))) (index : Nat) :
    (aggregateColumns requests rows)[index]? = requests[index]?.map (fun request =>
      aggregateColumn request (rows.map (fun row => row.getD index none))) := by
  simp [aggregateColumns, List.getElem?_mapIdx]

/-- Rows of columns that can be aggregated in parts can be. -/
theorem mergeable_columns {requests : List GroupbyAggregation}
    (each : ∀ request ∈ requests, Mergeable (aggregateColumn request : List (Cell ν) → Cell ν)) :
    Mergeable (aggregateColumns requests : List (List (Cell ν)) → List (Cell ν)) where
  reordered {first second} same := by
    refine List.ext_getElem? (fun index => ?_)
    rw [getElem?_aggregateColumns, getElem?_aggregateColumns]
    cases found : requests[index]? with
    | none => rfl
    | some request =>
      exact congrArg some ((each request (List.mem_of_getElem? found)).reordered (same.map _))
  nested parts := by
    refine List.ext_getElem? (fun index => ?_)
    rw [getElem?_aggregateColumns, getElem?_aggregateColumns]
    cases found : requests[index]? with
    | none => rfl
    | some request =>
      have cells : (parts.map (aggregateColumns requests)).map (fun row => row.getD index none) =
          (parts.map (List.map (fun row => row.getD index none))).map (aggregateColumn request) := by
        rw [List.map_map, List.map_map]
        refine List.map_congr_left (fun part _ => ?_)
        simp [List.getD_eq_getElem?_getD, getElem?_aggregateColumns, found]
      rw [Option.map_some, Option.map_some, cells, (each request (List.mem_of_getElem? found)).nested,
        ← List.map_flatten]

/-! ## The pass over a table -/

section Pass

variable (operator : HashAggregateOperator) (compiled : Compiled)

def requestsOf : List GroupbyAggregation :=
  compiled.valueColumns.map (fun column => makePhysicalAggregation column.physicalAggKind)

/-- The groups of a table with its rows cut after the keys. -/
def groupsOf (table : Table ν) : List (List (Cell ν) × List (Cell ν)) :=
  groupEntries (aggregateColumns (requestsOf compiled))
    ((table.map (splitRow operator.groupBy.length)).filter (fun entry => keyPresent entry.1))

theorem mergeable_requests :
    Mergeable (aggregateColumns (requestsOf compiled) : List (List (Cell ν)) → List (Cell ν)) := by
  refine mergeable_columns (fun request member => ?_)
  obtain ⟨column, _, rfl⟩ := List.mem_map.mp member
  exact mergeable_column _

theorem key_groupsOf {table : Table ν} {entry : List (Cell ν) × List (Cell ν)}
    (member : entry ∈ groupsOf operator compiled table) :
    keyPresent entry.1 = true ∧ ∃ row ∈ table, entry.1 = row.take operator.groupBy.length := by
  have key : entry.1 ∈ (groupsOf operator compiled table).map Prod.fst :=
    List.mem_map_of_mem member
  rw [groupsOf, keys_groupEntries, mem_distinct] at key
  obtain ⟨source, inside, same⟩ := List.mem_map.mp key
  obtain ⟨split, present⟩ := List.mem_filter.mp inside
  obtain ⟨row, inTable, rfl⟩ := List.mem_map.mp split
  exact ⟨by rw [← same]; exact present, row, inTable, same.symm⟩

theorem split_assembled {table : Table ν} (valid : ∀ row ∈ table, operator.groupBy.length ≤ row.length) :
    ((groupsOf operator compiled table).map (fun entry => entry.1 ++ entry.2)).map
      (splitRow operator.groupBy.length) = groupsOf operator compiled table := by
  rw [List.map_map]
  conv_rhs => rw [← List.map_id (groupsOf operator compiled table)]
  refine List.map_congr_left (fun entry member => ?_)
  obtain ⟨_, row, inTable, same⟩ := key_groupsOf operator compiled member
  have width : entry.1.length = operator.groupBy.length := by
    rw [same, List.length_take]
    exact Nat.min_eq_left (valid row inTable)
  simp only [Function.comp_apply, splitRow, ← width, List.take_left, List.drop_left, id_eq]

/-- Cut after the keys, parts that summarise tables are groups of the cut tables, and none of their
keys is null. -/
theorem split_parts {parts tables : List (Table ν)}
    (valid : ∀ table ∈ tables, ∀ row ∈ table, operator.groupBy.length ≤ row.length)
    (same : List.Forall₂ (fun part table => part.Perm
      ((groupsOf operator compiled table).map (fun entry => entry.1 ++ entry.2))) parts tables) :
    List.Forall₂ (fun part table => part.Perm (groupEntries (aggregateColumns (requestsOf compiled)) table))
        (parts.map (List.map (splitRow operator.groupBy.length)))
        (tables.map (fun table => (table.map (splitRow operator.groupBy.length)).filter
          (fun entry => keyPresent entry.1))) ∧
      ∀ entry ∈ parts.flatten.map (splitRow operator.groupBy.length), keyPresent entry.1 = true := by
  induction same with
  | nil => exact ⟨.nil, by simp⟩
  | @cons part table parts tables grouped _ hypothesis =>
    obtain ⟨rest, restPresent⟩ := hypothesis (fun other member => valid other (List.mem_cons_of_mem _ member))
    have cut := grouped.map (splitRow operator.groupBy.length)
    rw [split_assembled operator compiled (valid table (List.mem_cons_self ..))] at cut
    refine ⟨.cons cut rest, fun entry member => ?_⟩
    rw [List.flatten_cons, List.map_append, List.mem_append] at member
    rcases member with inPart | inRest
    · exact (key_groupsOf operator compiled (cut.mem_iff.mp inPart)).1
    · exact restPresent entry inRest

/-- The grouping pass, with rows assembled from keys and aggregates. -/
def groupSummary : Summary (List (Cell ν)) where
  summarise table := (groupsOf operator compiled table).map (fun entry => entry.1 ++ entry.2)
  valid row := operator.groupBy.length ≤ row.length
  keepsValid {table} valid row member := by
    obtain ⟨entry, inGroups, rfl⟩ := List.mem_map.mp member
    obtain ⟨_, source, inTable, same⟩ := key_groupsOf operator compiled inGroups
    have wide := valid source inTable
    rw [List.length_append, same, List.length_take]
    omega
  regroups {parts tables} valid same := by
    obtain ⟨cut, present⟩ := split_parts operator compiled valid same
    have regrouped := (groupEntries_flatten (mergeable_requests compiled) cut).map
      (fun entry => entry.1 ++ entry.2)
    rw [← List.map_flatten, ← List.filter_eq_self.mpr present] at regrouped
    simpa [groupsOf, List.map_flatten, List.filter_flatten, Function.comp_def] using regrouped
  grows first second := by
    simp only [groupsOf, List.length_map, groupEntries]
    refine length_distinct_le (fun key member => ?_)
    rw [List.map_append, List.filter_append, List.map_append]
    exact List.mem_append_left _ member

/-- What one pass computes, in the mode the operator was opened in. -/
def summaryOf : Summary (List (Cell ν)) :=
  match compiled.countDistinctArgument with
  | some _ => distinctSummary (List (Cell ν))
  | none => groupSummary operator compiled

theorem summariseTable_perm (cudf : CudfGroupby ν) (table : Table ν) :
    (summariseTable cudf operator compiled table).Perm
      ((summaryOf operator compiled).summarise table) := by
  unfold summariseTable summaryOf
  cases compiled.countDistinctArgument with
  | some argument => exact cudf.distinctRows_perm table
  | none => exact (cudf.groupby_perm _ _).map _

theorem batchColumns_valid (materialize : Expression → Row → Cell ν) (batch : List Row) :
    ∀ row ∈ batchColumns materialize operator compiled batch,
      (summaryOf operator compiled).valid row := by
  intro row member
  unfold batchColumns at member
  unfold summaryOf
  cases mode : compiled.countDistinctArgument with
  | some argument => trivial
  | none =>
    rw [mode] at member
    obtain ⟨source, _, rfl⟩ := List.mem_map.mp member
    simp [groupSummary, groupKeys]

omit [LinearOrder ν] in
theorem batchColumns_nil (materialize : Expression → Row → Cell ν) :
    batchColumns materialize operator compiled [] = [] := by
  unfold batchColumns buildCombinedColumns
  cases compiled.countDistinctArgument <;> rfl

omit [LinearOrder ν] in
theorem batchColumns_append (materialize : Expression → Row → Cell ν) (first second : List Row) :
    batchColumns materialize operator compiled (first ++ second) =
      batchColumns materialize operator compiled first ++
        batchColumns materialize operator compiled second := by
  unfold batchColumns buildCombinedColumns
  cases compiled.countDistinctArgument <;> exact List.map_append

end Pass

/-! ## What the operator holds -/

section Run

variable {operator : HashAggregateOperator} {compiled : Compiled}

/-- The tables held are summaries of consecutive pieces of the columns read so far. There is an
accumulated table as soon as a batch has been seen, and it is within the limit. -/
structure Absorbed (operator : HashAggregateOperator) (compiled : Compiled) (columns : Table ν)
    (progress : Progress ν) : Prop where
  pieces : ∃ tables : List (Table ν), tables.flatten = columns ∧
    List.Forall₂ (fun part table => part.Perm ((summaryOf operator compiled).summarise table))
      (progress.accumulated.toList ++ progress.pendingPartials) tables
  valid : ∀ row ∈ columns, (summaryOf operator compiled).valid row
  within : ∀ table, progress.accumulated = some table → table.length ≤ operator.maxDistinctKeys

theorem absorbed_initial : Absorbed operator compiled [] (Progress.initial : Progress ν) where
  pieces := ⟨[], rfl, .nil⟩
  valid := by simp
  within := by simp [Progress.initial]

/-- A partial result of one more piece joins the pending ones. -/
theorem absorbed_pending {columns piece part : Table ν} {progress : Progress ν}
    (absorbed : Absorbed operator compiled columns progress)
    (valid : ∀ row ∈ piece, (summaryOf operator compiled).valid row)
    (summary : part.Perm ((summaryOf operator compiled).summarise piece)) :
    Absorbed operator compiled (columns ++ piece) (progress.addPartial part) where
  pieces := by
    obtain ⟨tables, flattened, parts⟩ := absorbed.pieces
    refine ⟨tables ++ [piece], by simp [flattened], ?_⟩
    rw [Progress.addPartial, ← List.append_assoc]
    exact List.rel_append parts (.cons summary .nil)
  valid row member := (List.mem_append.mp member).elim (absorbed.valid row) (valid row)
  within := absorbed.within

/-- What the pending partials fold into is a summary of everything read. -/
theorem foldPending_perm (cudf : CudfGroupby ν) {columns : Table ν} {progress : Progress ν}
    (absorbed : Absorbed operator compiled columns progress) :
    (foldPending cudf operator compiled progress).Perm
      ((summaryOf operator compiled).summarise columns) := by
  obtain ⟨tables, rfl, parts⟩ := absorbed.pieces
  have merged : (summariseTable cudf operator compiled
      (progress.accumulated.toList ++ progress.pendingPartials).flatten).Perm
        ((summaryOf operator compiled).summarise tables.flatten) := by
    refine (summariseTable_perm operator compiled cudf _).trans ?_
    refine (summaryOf operator compiled).regroups (fun table member row inTable => ?_) parts
    exact absorbed.valid row (List.mem_flatten.mpr ⟨table, member, inTable⟩)
  unfold foldPending
  split
  · rename_i part noTable onePart
    rw [noTable, onePart] at parts
    obtain ⟨_, _, same, rest, rfl⟩ := List.forall₂_cons_left_iff.mp parts
    rw [List.forall₂_nil_left_iff.mp rest]
    simpa using same
  · exact merged

/-- A flush folds everything into one table, or reports that the table is over the limit. -/
theorem flushPending_absorbed (cudf : CudfGroupby ν) {columns : Table ν} {progress : Progress ν}
    (absorbed : Absorbed operator compiled columns progress) :
    (∃ flushed, flushPending cudf operator compiled progress = .ok flushed ∧
        Absorbed operator compiled columns flushed ∧ flushed.pendingPartials = [] ∧
        flushed.anyBatchSeen = progress.anyBatchSeen ∧
        (progress.pendingPartials ≠ [] ∨ progress.accumulated.isSome → flushed.accumulated.isSome)) ∨
      operator.maxDistinctKeys < ((summaryOf operator compiled).summarise columns).length ∧
        ∃ rows, flushPending cudf operator compiled progress =
          .error (distinctKeysMessage operator compiled rows) := by
  have folded := foldPending_perm cudf absorbed
  unfold flushPending
  by_cases none : progress.pendingPartials.isEmpty = true
  · rw [if_pos none]
    have noPartial := List.isEmpty_iff.mp none
    refine .inl ⟨progress, rfl, absorbed, noPartial, rfl, ?_⟩
    rintro (some | held)
    · exact absurd noPartial some
    · exact held
  · rw [if_neg none]
    by_cases exceeds : (foldPending cudf operator compiled progress).length > operator.maxDistinctKeys
    · refine .inr ⟨?_, (foldPending cudf operator compiled progress).length, if_pos exceeds⟩
      rwa [← folded.length_eq]
    · refine .inl ⟨_, if_neg exceeds, ⟨⟨[columns], by simp, .cons folded .nil⟩, absorbed.valid, ?_⟩,
        rfl, rfl, fun _ => rfl⟩
      rintro table ⟨⟩
      exact not_lt.mp exceeds

/-- One batch is absorbed, whether or not it triggers a flush. -/
theorem processBatch_absorbed (cudf : CudfGroupby ν) (materialize : Expression → Row → Cell ν)
    {columns : Table ν} {progress : Progress ν} (absorbed : Absorbed operator compiled columns progress)
    (batch : List Row) :
    (∃ next, processBatch cudf materialize operator compiled progress batch = .ok next ∧
        Absorbed operator compiled (columns ++ batchColumns materialize operator compiled batch) next ∧
        next.anyBatchSeen = true ∧ next.accumulated.isSome) ∨
      operator.maxDistinctKeys < ((summaryOf operator compiled).summarise
          (columns ++ batchColumns materialize operator compiled batch)).length ∧
        ∃ rows, processBatch cudf materialize operator compiled progress batch =
          .error (distinctKeysMessage operator compiled rows) := by
  have pending := absorbed_pending absorbed (batchColumns_valid operator compiled materialize batch)
    (summariseTable_perm operator compiled cudf _)
  have flushed := flushPending_absorbed cudf pending
  have partials : ∀ part, (progress.addPartial part).pendingPartials ≠ [] := by
    simp [Progress.addPartial]
  simp only [processBatch]
  split
  · rcases flushed with ⟨next, ran, holds, _, seen, some⟩ | exceeds
    · exact .inl ⟨next, ran, holds, seen, some (.inl (partials _))⟩
    · exact .inr exceeds
  · rename_i accumulated held
    split
    · rcases flushed with ⟨next, ran, holds, _, seen, some⟩ | exceeds
      · exact .inl ⟨next, ran, holds, seen, some (.inl (partials _))⟩
      · exact .inr exceeds
    · refine .inl ⟨_, rfl, pending, rfl, ?_⟩
      rw [held]
      rfl

/-- A run over batches absorbs them all, or meets the limit. -/
theorem processBatches_absorbed (cudf : CudfGroupby ν) (materialize : Expression → Row → Cell ν)
    (batches : List (List Row)) {columns : Table ν} {progress : Progress ν}
    (absorbed : Absorbed operator compiled columns progress) :
    (∃ next, batches.foldlM (processBatch cudf materialize operator compiled) progress = .ok next ∧
        Absorbed operator compiled
          (columns ++ batchColumns materialize operator compiled batches.flatten) next ∧
        (batches = [] ∧ next = progress ∨ next.anyBatchSeen = true ∧ next.accumulated.isSome)) ∨
      operator.maxDistinctKeys < ((summaryOf operator compiled).summarise
          (columns ++ batchColumns materialize operator compiled batches.flatten)).length ∧
        ∃ rows, batches.foldlM (processBatch cudf materialize operator compiled) progress =
          .error (distinctKeysMessage operator compiled rows) := by
  induction batches generalizing columns progress with
  | nil =>
    refine .inl ⟨progress, rfl, ?_, .inl ⟨rfl, rfl⟩⟩
    rwa [List.flatten_nil, batchColumns_nil, List.append_nil]
  | cons batch batches hypothesis =>
    rw [List.foldlM_cons, List.flatten_cons, batchColumns_append, ← List.append_assoc]
    rcases processBatch_absorbed cudf materialize absorbed batch with
      ⟨next, ran, holds, seen⟩ | ⟨exceeds, rows, failed⟩
    · rw [ran]
      rcases hypothesis holds with ⟨last, restRan, restHolds, rest⟩ | exceeds
      · refine .inl ⟨last, restRan, restHolds, .inr ?_⟩
        rcases rest with ⟨_, rfl⟩ | restSeen
        · exact seen
        · exact restSeen
      · exact .inr exceeds
    · rw [failed]
      exact .inr ⟨lt_of_lt_of_le exceeds ((summaryOf operator compiled).grows _ _), rows, rfl⟩

/-- What a finished run holds: nothing when there was no batch, else one summary of everything. -/
theorem run_absorbed (cudf : CudfGroupby ν) (materialize : Expression → Row → Cell ν)
    (operator : HashAggregateOperator) (compiled : Compiled) (batches : List (List Row)) :
    let columns := batchColumns materialize operator compiled batches.flatten
    let run := batches.foldlM (processBatch cudf materialize operator compiled) .initial >>=
      flushPending cudf operator compiled
    (∃ final, run = .ok final ∧
        (final.anyBatchSeen = false ∧ batches = [] ∨
          final.anyBatchSeen = true ∧ ∃ table, final.accumulated = some table ∧
            table.Perm ((summaryOf operator compiled).summarise columns) ∧
            table.length ≤ operator.maxDistinctKeys)) ∨
      operator.maxDistinctKeys < ((summaryOf operator compiled).summarise columns).length ∧
        ∃ rows, run = .error (distinctKeysMessage operator compiled rows) := by
  intro columns run
  rcases processBatches_absorbed cudf materialize batches absorbed_initial with
    ⟨last, ran, holds, progressed⟩ | ⟨exceeds, rows, failed⟩
  · rw [List.nil_append] at holds
    have flush : run = flushPending cudf operator compiled last := congrArg (· >>= _) ran
    rcases progressed with ⟨rfl, rfl⟩ | ⟨seen, some⟩
    · exact .inl ⟨.initial, rfl, .inl ⟨rfl, rfl⟩⟩
    rcases flushPending_absorbed cudf holds with
      ⟨final, flushed, absorbed, noPartial, sameSeen, held⟩ | ⟨exceeds, failed⟩
    · obtain ⟨table, found⟩ := Option.isSome_iff_exists.mp (held (.inr some))
      obtain ⟨tables, flattened, parts⟩ := absorbed.pieces
      rw [noPartial, List.append_nil, found] at parts
      obtain ⟨piece, _, same, rest, rfl⟩ := List.forall₂_cons_left_iff.mp parts
      rw [List.forall₂_nil_left_iff.mp rest, List.flatten_singleton] at flattened
      refine .inl ⟨final, flush.trans flushed, .inr ⟨sameSeen.trans seen, table, found, ?_, ?_⟩⟩
      · rwa [flattened] at same
      · exact absorbed.within table found
    · exact .inr ⟨exceeds, failed.imp (fun rows failed => flush.trans failed)⟩
  · rw [List.nil_append] at exceeds
    exact .inr ⟨exceeds, rows, congrArg (· >>= _) failed⟩

end Run

/-! ## Reading the result -/

section Result

variable (materialize : Expression → Row → Cell ν) (divide : ν → ν → ν)

/-- A physical column aggregated over all rows of a group. -/
def physicalCell (group : List Row) (column : ValueColumn) : Cell ν :=
  aggregateColumn (makePhysicalAggregation column.physicalAggKind)
    (group.map (materializeValueColumn materialize column))

theorem aggregateColumns_rows (compiled : Compiled) (group : List Row) :
    aggregateColumns (requestsOf compiled) (group.map (fun row =>
      compiled.valueColumns.map (fun column => materializeValueColumn materialize column row))) =
        compiled.valueColumns.map (physicalCell materialize group) := by
  refine List.ext_getElem? (fun index => ?_)
  rw [getElem?_aggregateColumns, requestsOf, List.getElem?_map, List.getElem?_map]
  cases found : compiled.valueColumns[index]? with
  | none => rfl
  | some column =>
    simp [physicalCell, List.getD_eq_getElem?_getD, found, Function.comp_def]

omit [LinearOrder ν] in
@[simp] theorem materializeValueColumn_expression (argument : Expression) (kind : PhysicalAggKind) :
    materializeValueColumn materialize ⟨some argument, .expression, kind⟩ = materialize argument :=
  rfl

omit [LinearOrder ν] in
@[simp] theorem materializeValueColumn_countStarOnes (kind : PhysicalAggKind) :
    materializeValueColumn materialize ⟨none, .countStarOnes, kind⟩ = fun _ => some 1 :=
  rfl

omit [LinearOrder ν] in
@[simp] theorem materializeValueColumn_countColumnOnes (argument : Expression) (kind : PhysicalAggKind) :
    materializeValueColumn materialize ⟨some argument, .countColumnOnes, kind⟩ =
      fun row => (materialize argument row).map (fun _ => 1) :=
  rfl

omit [LinearOrder ν] in
/-- The sum of the ones that stand where an argument is present counts them; without any it is
null. -/
theorem sum_ones (cells : List (Cell ν)) :
    reducePresent (· + ·) (cells.map (Option.map (fun _ => (1 : ν)))) =
      if cells.filter Option.isSome = [] then none
      else some ((cells.filter Option.isSome).length : ν) := by
  induction cells with
  | nil => rfl
  | cons cell cells hypothesis =>
    unfold reducePresent at hypothesis ⊢
    rw [List.map_cons, List.foldr_cons, hypothesis]
    cases cell with
    | none => simp
    | some value =>
      rw [List.filter_cons_of_pos rfl, if_neg (List.cons_ne_nil _ _)]
      split
      · rename_i empty
        simp [empty]
      · simp [add_comm]

omit [LinearOrder ν] in
theorem sum_ones_getD (cells : List (Cell ν)) :
    (reducePresent (· + ·) (cells.map (Option.map (fun _ => (1 : ν))))).getD 0 =
      ((cells.filter Option.isSome).length : ν) := by
  rw [sum_ones]
  split
  · rename_i empty
    simp [empty]
  · rfl

/-- Opening one aggregate adds physical columns from which its output column reads the aggregate
of a group. -/
theorem openAggregate_columnwise {item : NamedExpression} (plain : columnwise item.expr = true)
    (count : Nat) (compiled : Compiled) :
    ∃ columns output, openAggregate count compiled item = .ok (compiled.pushBack columns output) ∧
      ∀ (outputs : List OutputColumn) (group : List Row) (rest : List (Cell ν)),
        finalCells divide (output :: outputs) (columns.map (physicalCell materialize group) ++ rest) =
          groupAggregate materialize divide item.expr group :: finalCells divide outputs rest := by
  obtain ⟨expr, name⟩ := item
  cases expr with
  | countStar type =>
    refine ⟨_, _, rfl, fun outputs group rest => ?_⟩
    have ones := sum_ones_getD (group.map (fun _ => some (1 : ν)))
    simp only [List.map_map, Function.comp_def, Option.map_some] at ones
    have all : (group.map (fun _ => some (1 : ν))).filter Option.isSome =
        group.map (fun _ => some (1 : ν)) := by simp
    rw [all, List.length_map, List.map_const'] at ones
    simp [finalCells, physicalCell, groupAggregate, aggregateColumn, makePhysicalAggregation, ones]
  | aggregate function argument type =>
    have ones (group : List Row) := sum_ones (group.map (materialize argument))
    have counted (group : List Row) := sum_ones_getD (group.map (materialize argument))
    simp only [List.map_map, Function.comp_def] at ones counted
    cases function with
    | countDistinct => simp [columnwise] at plain
    | sum =>
      refine ⟨_, _, rfl, fun outputs group rest => ?_⟩
      simp [finalCells, physicalCell, groupAggregate, aggregateColumn, makePhysicalAggregation]
    | min =>
      refine ⟨_, _, rfl, fun outputs group rest => ?_⟩
      simp [finalCells, physicalCell, groupAggregate, aggregateColumn, makePhysicalAggregation]
    | max =>
      refine ⟨_, _, rfl, fun outputs group rest => ?_⟩
      simp [finalCells, physicalCell, groupAggregate, aggregateColumn, makePhysicalAggregation]
    | count =>
      refine ⟨_, _, rfl, fun outputs group rest => ?_⟩
      simp [finalCells, physicalCell, groupAggregate, aggregateColumn, makePhysicalAggregation,
        counted]
    | avg =>
      refine ⟨_, _, rfl, fun outputs group rest => ?_⟩
      -- A sum that is not null has a value to count, so the count is not null either.
      have divided : (reducePresent (· + ·) (group.map (materialize argument))).bind (fun total =>
          (reducePresent (· + ·) (group.map (fun row =>
            (materialize argument row).map (fun _ => (1 : ν))))).map (divide total)) =
          groupAggregate materialize divide (.aggregate .avg argument type) group := by
        rw [ones group]
        split
        · rename_i empty
          have noSum : reducePresent (· + ·) (group.map (materialize argument)) = none := by
            refine reducePresent_eq_none.mpr (fun cell member => ?_)
            simpa using List.filter_eq_nil_iff.mp empty cell member
          simp [groupAggregate, noSum]
        · cases found : reducePresent (· + ·) (group.map (materialize argument)) <;>
            simp [groupAggregate, found]
      rw [← divided]
      simp [finalCells, physicalCell, aggregateColumn, makePhysicalAggregation]
  | _ => simp [columnwise] at plain

/-- Opening a list of aggregates, one after the other. -/
theorem openAggregates_columnwise {aggregates : List NamedExpression}
    (plain : ∀ item ∈ aggregates, columnwise item.expr = true) (count : Nat) (compiled : Compiled) :
    ∃ columns outputs, aggregates.foldlM (openAggregate count) compiled =
        .ok ⟨compiled.valueColumns ++ columns, compiled.outputColumns ++ outputs,
          compiled.countDistinctArgument⟩ ∧
      ∀ group : List Row, finalCells divide outputs (columns.map (physicalCell materialize group)) =
        aggregates.map (fun item => groupAggregate materialize divide item.expr group) := by
  induction aggregates generalizing compiled with
  | nil => exact ⟨[], [], by simp [pure, Except.pure], fun group => rfl⟩
  | cons item aggregates hypothesis =>
    obtain ⟨columns, output, opened, read⟩ := openAggregate_columnwise materialize divide
      (plain item (List.mem_cons_self ..)) count compiled
    obtain ⟨others, outputs, restOpened, restRead⟩ := hypothesis
      (fun other member => plain other (List.mem_cons_of_mem _ member)) (compiled.pushBack columns output)
    refine ⟨columns ++ others, output :: outputs, ?_, fun group => ?_⟩
    · rw [List.foldlM_cons, opened]
      exact restOpened.trans (by simp [Compiled.pushBack])
    · rw [List.map_append, read, restRead, List.map_cons]

/-- The grouping pass over the columns of rows whose keys are present, row group by row group. -/
theorem groupsOf_rows (operator : HashAggregateOperator) {compiled : Compiled}
    (mode : compiled.countDistinctArgument = none) {rows : List Row}
    (present : ∀ row ∈ rows, keyPresent (groupKeys materialize operator row) = true) :
    groupsOf operator compiled (batchColumns materialize operator compiled rows) =
      (groupRows (groupKeys materialize operator) rows).map (fun group =>
        (group.1, compiled.valueColumns.map (physicalCell materialize group.2))) := by
  have entries : ((batchColumns materialize operator compiled rows).map
      (splitRow operator.groupBy.length)).filter (fun entry => keyPresent entry.1) =
        rows.map (fun row => (groupKeys materialize operator row,
          compiled.valueColumns.map (fun column => materializeValueColumn materialize column row))) := by
    have split : (batchColumns materialize operator compiled rows).map (splitRow operator.groupBy.length) =
        rows.map (fun row => (groupKeys materialize operator row,
          compiled.valueColumns.map (fun column => materializeValueColumn materialize column row))) := by
      have width (row : Row) : (groupKeys materialize operator row).length = operator.groupBy.length :=
        List.length_map _
      simp only [batchColumns, mode, buildCombinedColumns, List.map_map]
      refine List.map_congr_left (fun row _ => ?_)
      simp only [Function.comp_apply, splitRow, ← width row, List.take_left, List.drop_left]
    rw [split, List.filter_eq_self]
    intro entry member
    obtain ⟨row, inRows, rfl⟩ := List.mem_map.mp member
    exact present row inRows
  rw [groupsOf, entries, groupEntries_map]
  exact List.map_congr_left (fun group _ => by rw [aggregateColumns_rows])

/-- The finished groups are the groups of all rows, with the aggregates the outputs read. -/
theorem finalize_columns (cudf : CudfGroupby ν) (operator : HashAggregateOperator) {compiled : Compiled}
    (mode : compiled.countDistinctArgument = none)
    (read : ∀ group : List Row,
      finalCells divide compiled.outputColumns (compiled.valueColumns.map (physicalCell materialize group)) =
        operator.aggregates.map (fun item => groupAggregate materialize divide item.expr group))
    {rows : List Row} (present : ∀ row ∈ rows, keyPresent (groupKeys materialize operator row) = true)
    {progress : Progress ν} {table : Table ν} (seen : progress.anyBatchSeen = true)
    (held : progress.accumulated = some table)
    (summary : table.Perm ((summaryOf operator compiled).summarise
      (batchColumns materialize operator compiled rows))) :
    ∃ result, finalize cudf operator compiled divide progress = .ok result ∧
      result.Perm (groupedOnce materialize divide operator rows) := by
  have finished : finalize cudf operator compiled divide progress = .ok (table.map (fun row =>
      row.take operator.groupBy.length ++
        finalCells divide compiled.outputColumns (row.drop operator.groupBy.length))) := by
    simp [finalize, seen, held, mode]
  refine ⟨_, finished, (summary.map _).trans ?_⟩
  simp only [summaryOf, mode, groupSummary, groupsOf_rows materialize operator mode present, List.map_map]
  refine List.Perm.of_eq (List.map_congr_left (fun group member => ?_))
  have width : group.1.length = operator.groupBy.length := by
    obtain ⟨key, inKeys, rfl⟩ := List.mem_map.mp member
    obtain ⟨row, _, rfl⟩ := List.mem_map.mp (mem_distinct.mp inKeys)
    exact List.length_map _
  simp only [Function.comp_apply, ← width, List.take_left, List.drop_left, read]

omit [AddCommMonoidWithOne ν] in
/-- Under a key, the pairs left after duplicates are removed are the different arguments of its
rows. -/
theorem arguments_perm (operator : HashAggregateOperator) (argument : Expression) (rows : List Row)
    {table : Table ν} (key : List (Cell ν))
    (summary : table.Perm (distinct (rows.map (fun row =>
      groupKeys materialize operator row ++ [materialize argument row])))) :
    ((valuesOf (table.map (splitRow operator.groupBy.length)) key).map (fun cells => cells.getD 0 none)).Perm
      (distinct ((rows.filter (fun row => groupKeys materialize operator row = key)).map
        (materialize argument))) := by
  have width (row : Row) : (groupKeys materialize operator row).length = operator.groupBy.length :=
    List.length_map _
  have shape : ∀ row ∈ table, ∃ source ∈ rows,
      row = groupKeys materialize operator source ++ [materialize argument source] := by
    intro row member
    obtain ⟨source, inRows, rfl⟩ := List.mem_map.mp (mem_distinct.mp (summary.mem_iff.mp member))
    exact ⟨source, inRows, rfl⟩
  have values : (valuesOf (table.map (splitRow operator.groupBy.length)) key).map
      (fun cells => cells.getD 0 none) =
        (table.filter (fun row => row.take operator.groupBy.length = key)).map
          (fun row => (row.drop operator.groupBy.length).getD 0 none) := by
    rw [valuesOf, List.filter_map, List.map_map, List.map_map]
    rfl
  rw [values, List.perm_ext_iff_of_nodup ?_ (nodup_distinct _)]
  · intro cell
    simp only [mem_distinct, List.mem_map, List.mem_filter, decide_eq_true_eq]
    constructor
    · rintro ⟨row, ⟨member, sameKey⟩, rfl⟩
      obtain ⟨source, inRows, rfl⟩ := shape row member
      rw [← width source, List.take_left] at sameKey
      refine ⟨source, ⟨inRows, sameKey⟩, ?_⟩
      simp [← width source]
    · rintro ⟨source, ⟨inRows, sameKey⟩, rfl⟩
      refine ⟨groupKeys materialize operator source ++ [materialize argument source], ⟨?_, ?_⟩, ?_⟩
      · exact summary.mem_iff.mpr (mem_distinct.mpr (List.mem_map.mpr ⟨source, inRows, rfl⟩))
      · rw [← width source, List.take_left, sameKey]
      · simp [← width source]
  · -- Rows of one key differ only in their argument.
    refine List.Nodup.map_on ?_ ((summary.nodup_iff.mpr (nodup_distinct _)).filter _)
    intro first inFirst second inSecond sameArgument
    simp only [List.mem_filter, decide_eq_true_eq] at inFirst inSecond
    obtain ⟨source, _, rfl⟩ := shape first inFirst.1
    obtain ⟨other, _, rfl⟩ := shape second inSecond.1
    have sameKeys := inFirst.2.trans inSecond.2.symm
    rw [← width source, List.take_left, width source, ← width other, List.take_left] at sameKeys
    rw [← width source, List.drop_left, width source, ← width other, List.drop_left] at sameArgument
    have same : materialize argument source = materialize argument other := sameArgument
    rw [sameKeys, same]

/-- Counting the pairs left after duplicates are removed counts the different arguments. -/
theorem finalize_distinct (cudf : CudfGroupby ν) (operator : HashAggregateOperator) {compiled : Compiled}
    {argument : Expression} {type : DataType} {name : String}
    (sole : operator.aggregates = [⟨.aggregate .countDistinct argument type, name⟩])
    (mode : compiled.countDistinctArgument = some argument)
    {rows : List Row} (present : ∀ row ∈ rows, keyPresent (groupKeys materialize operator row) = true)
    {progress : Progress ν} {table : Table ν} (seen : progress.anyBatchSeen = true)
    (held : progress.accumulated = some table)
    (summary : table.Perm ((summaryOf operator compiled).summarise
      (batchColumns materialize operator compiled rows))) :
    ∃ result, finalize cudf operator compiled divide progress = .ok result ∧
      result.Perm (groupedOnce materialize divide operator rows) := by
  simp only [summaryOf, mode, distinctSummary, batchColumns] at summary
  have finished : finalize cudf operator compiled divide progress = .ok
      ((cudf.groupby [.countValid] (table.map (splitRow operator.groupBy.length))).map
        (fun entry => entry.1 ++ entry.2)) := by
    simp [finalize, seen, held, mode]
  refine ⟨_, finished, ((cudf.groupby_perm _ _).map _).trans ?_⟩
  have keys (key : List (Cell ν)) :
      key ∈ (table.map (splitRow operator.groupBy.length)).map Prod.fst ↔
        key ∈ (rows.map (fun row => (groupKeys materialize operator row, row))).map Prod.fst := by
    have width (row : Row) : (groupKeys materialize operator row).length = operator.groupBy.length :=
      List.length_map _
    simp only [List.map_map, List.mem_map, Function.comp_apply, splitRow, summary.mem_iff, mem_distinct]
    constructor
    · rintro ⟨_, ⟨row, inRows, rfl⟩, rfl⟩
      exact ⟨row, inRows, by rw [← width row, List.take_left]⟩
    · rintro ⟨row, inRows, rfl⟩
      exact ⟨_, ⟨row, inRows, rfl⟩, by rw [← width row, List.take_left]⟩
  have whole : (table.map (splitRow operator.groupBy.length)).filter (fun entry => keyPresent entry.1) =
      table.map (splitRow operator.groupBy.length) := by
    refine List.filter_eq_self.mpr (fun entry member => ?_)
    obtain ⟨_, member, same⟩ := List.mem_map.mp ((keys entry.1).mp (List.mem_map_of_mem member))
    obtain ⟨row, inRows, rfl⟩ := List.mem_map.mp member
    rw [← same]
    exact present row inRows
  have once : groupedOnce materialize divide operator rows =
      (groupEntries (fun group => [groupAggregate materialize divide
        (.aggregate .countDistinct argument type) group])
        (rows.map (fun row => (groupKeys materialize operator row, row)))).map
          (fun entry => entry.1 ++ entry.2) := by
    rw [groupEntries_map, List.map_map, groupedOnce, sole]
    simp [Function.comp_def]
  rw [whole, once]
  refine (groupEntries_perm keys (fun key => ?_)).map _
  have counted := ((arguments_perm materialize operator argument rows key summary).filter
    Option.isSome).length_eq
  rw [← distinct_filter] at counted
  rw [valuesOf_map (groupKeys materialize operator) (fun row => row), List.map_id']
  simp only [aggregateColumns, List.mapIdx_cons, List.mapIdx_nil, aggregateColumn, counted, groupAggregate]

end Result

/-! ## Whole runs -/

section Whole

variable (cudf : CudfGroupby ν) (materialize : Expression → Row → Cell ν) (divide : ν → ν → ν)
variable (operator : HashAggregateOperator)

/-- What a run needs to know about the operator it opened: the pass holds `heldRows` rows, and
finishing a summary of all rows gives their groups. -/
structure Opens (compiled : Compiled) : Prop where
  opened : operator.openOperator = .ok compiled
  held : ∀ rows : List Row, (∀ row ∈ rows, keyPresent (groupKeys materialize operator row) = true) →
    ((summaryOf operator compiled).summarise (batchColumns materialize operator compiled rows)).length =
      heldRows materialize operator rows
  finishes : ∀ {rows : List Row} {progress : Progress ν} {table : Table ν},
    (∀ row ∈ rows, keyPresent (groupKeys materialize operator row) = true) →
    progress.anyBatchSeen = true → progress.accumulated = some table →
    table.Perm ((summaryOf operator compiled).summarise (batchColumns materialize operator compiled rows)) →
    ∃ result, finalize cudf operator compiled divide progress = .ok result ∧
      result.Perm (groupedOnce materialize divide operator rows)

omit [AddCommMonoidWithOne ν] in
theorem heldRows_columnwise {materialize : Expression → Row → Cell ν} {operator : HashAggregateOperator}
    (plain : ∀ item ∈ operator.aggregates, columnwise item.expr = true) (rows : List Row) :
    heldRows materialize operator rows = (distinct (rows.map (groupKeys materialize operator))).length := by
  unfold heldRows
  split
  · rename_i argument type name sole
    have := plain ⟨.aggregate .countDistinct argument type, name⟩ (by rw [sole]; exact List.mem_cons_self ..)
    simp [columnwise] at this
  · rfl

theorem opens (keyed : operator.groupBy ≠ []) (supported : Supported operator.aggregates) :
    ∃ compiled, Opens cudf materialize divide operator compiled := by
  have start : operator.openOperator =
      operator.aggregates.foldlM (openAggregate operator.aggregates.length) ⟨[], [], none⟩ := by
    rw [HashAggregateOperator.openOperator, if_neg]
    simpa using keyed
  generalize listed : operator.aggregates = aggregates at supported
  cases supported with
  | columns each =>
    obtain ⟨columns, outputs, opened, read⟩ :=
      openAggregates_columnwise materialize divide each aggregates.length ⟨[], [], none⟩
    simp only [List.nil_append] at opened
    refine ⟨_, start.trans (by rw [listed]; exact opened), fun rows present => ?_,
      fun present seen held summary => ?_⟩
    · rw [heldRows_columnwise (by rwa [listed])]
      have noDistinct : (⟨columns, outputs, none⟩ : Compiled).countDistinctArgument = none := rfl
      simp only [summaryOf, groupSummary, List.length_map]
      rw [groupsOf_rows materialize operator noDistinct present, List.length_map, groupRows,
        List.length_map]
    · exact finalize_columns materialize divide cudf operator rfl (by rwa [listed]) present seen held summary
  | distinctCount argument type name =>
    refine ⟨⟨[], [], some argument⟩, start.trans (by rw [listed]; rfl), fun rows present => ?_,
      fun present seen held summary => ?_⟩
    · simp only [heldRows, listed, summaryOf, distinctSummary, batchColumns]
    · exact finalize_distinct materialize divide cudf operator listed rfl present seen held summary

/-- Grouped aggregation does not depend on its batches. On present keys, a run over any batches
returns the groups of all rows together, in some order; it fails exactly when the rows it must hold
exceed the limit, which does not depend on the batches either. -/
theorem execute_batches (keyed : operator.groupBy ≠ []) (supported : Supported operator.aggregates)
    (batches : List (List Row))
    (present : ∀ row ∈ batches.flatten, keyPresent (groupKeys materialize operator row) = true) :
    (heldRows materialize operator batches.flatten ≤ operator.maxDistinctKeys →
      ∃ result, execute cudf materialize operator divide batches = .ok result ∧
        result.Perm (groupedOnce materialize divide operator batches.flatten)) ∧
    (operator.maxDistinctKeys < heldRows materialize operator batches.flatten →
      ∃ compiled rows, operator.openOperator = .ok compiled ∧
        execute cudf materialize operator divide batches =
          .error (distinctKeysMessage operator compiled rows)) := by
  obtain ⟨compiled, opens⟩ := opens cudf materialize divide operator keyed supported
  have ran := run_absorbed cudf materialize operator compiled batches
  simp only [opens.held _ present] at ran
  have whole : execute cudf materialize operator divide batches =
      (batches.foldlM (processBatch cudf materialize operator compiled) .initial >>=
        flushPending cudf operator compiled) >>= finalize cudf operator compiled divide := by
    rw [execute, opens.opened, bind_assoc]
    rfl
  rw [whole]
  rcases ran with ⟨final, finished, outcome⟩ | ⟨exceeds, rows, failed⟩
  · rw [finished]
    rcases outcome with ⟨unseen, rfl⟩ | ⟨seen, table, held, summary, within⟩
    · have nothing : heldRows materialize operator [] = 0 := by
        unfold heldRows
        split <;> rfl
      refine ⟨fun _ => ⟨[], ?_, .refl _⟩, fun exceeds => ?_⟩
      · change finalize cudf operator compiled divide final = .ok []
        simp [finalize, unseen]
      · rw [List.flatten_nil, nothing] at exceeds
        omega
    · have same := summary.length_eq
      rw [opens.held _ present] at same
      exact ⟨fun _ => opens.finishes present seen held summary, fun exceeds => by omega⟩
  · rw [failed]
    exact ⟨fun within => by omega, fun _ => ⟨compiled, rows, opens.opened, rfl⟩⟩

end Whole

/-- The integer in a column. -/
def integerCell : Expression → Row → Cell Int
  | .column _ index _, row =>
    match row.getD index .null with
    | .int value => some value
    | _ => none
  | _, _ => none

def countedSales : HashAggregateOperator where
  groupBy := [⟨.column "region" 0 ⟨.int64, false, none, none⟩, "region"⟩]
  aggregates :=
    [⟨.aggregate .sum (.column "sales" 1 ⟨.int64, true, none, none⟩) ⟨.int64, true, none, none⟩, "sum"⟩,
      ⟨.aggregate .avg (.column "sales" 1 ⟨.int64, true, none, none⟩) ⟨.float64, true, none, none⟩, "avg"⟩,
      ⟨.aggregate .count (.column "sales" 1 ⟨.int64, true, none, none⟩) ⟨.int64, false, none, none⟩, "count"⟩,
      ⟨.countStar ⟨.int64, false, none, none⟩, "rows"⟩]
  maxDistinctKeys := 2

/-- Four batches, one of them empty; the second region has only nulls. -/
def salesBatches : List (List Row) :=
  [[[.int 1, .int 10], [.int 2, .null]], [], [[.int 1, .null]], [[.int 1, .int 20], [.int 2, .null]]]

theorem execute_batches_sales :
    ∃ result, execute (.inOrder Int) integerCell countedSales (· / ·) salesBatches = .ok result ∧
      result.Perm (groupedOnce integerCell (· / ·) countedSales salesBatches.flatten) :=
  (execute_batches (.inOrder Int) integerCell (· / ·) countedSales (by decide)
    (.columns (by decide)) salesBatches (by decide)).1 (by decide)

example : groupedOnce integerCell (· / ·) countedSales salesBatches.flatten =
    [[some 1, some 30, some 15, some 2, some 3], [some 2, none, none, some 0, some 2]] := by decide

end KernelLake.HashAggregationProofs
