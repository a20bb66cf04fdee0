import KernelLake.ColumnProofs
import KernelLake.Library.Results
import KernelLake.PhysicalPlanner

/-!
Renumbered expressions read the same values.

`remapColumnsVia` replaces every column index by its place. If each place holds, in the changed row,
what the index holds in the original one, then an expression, a projection, a grouping and a sort key
have the same values before and after.
-/

namespace KernelLake.RemapProofs

open KernelLake.Types KernelLake.Expressions KernelLake.Evaluation KernelLake.LogicalPlans
open KernelLake.Optimizer KernelLake.PlanSemantics KernelLake.ColumnProofs KernelLake.PhysicalPlans
open KernelLake.PhysicalPlanner KernelLake.Library.Relations KernelLake.Library.Results

section Expressions

variable {resolve : String → Nat → Except String Nat} {change : Row → Row}

/-- The places of some columns hold in one row what their indices hold in another. -/
def AgreeOn (resolve : String → Nat → Except String Nat) (columns : List Nat) (row changed : Row) : Prop :=
  ∀ name, ∀ index ∈ columns, ∀ place, resolve name index = .ok place →
    columnValue changed place = columnValue row index

/-- A row and the group it stands for, with some of their columns in other places. -/
structure Reindexed (resolve : String → Nat → Except String Nat) (columns : List Nat)
    (group changedGroup : Option (List Row)) (row changed : Row) : Prop where
  row : AgreeOn resolve columns row changed
  group : Option.Rel (List.Forall₂ (AgreeOn resolve columns)) group changedGroup

theorem AgreeOn.subset {columns some : List Nat} {row changed : Row} (agree : AgreeOn resolve columns row changed)
    (subset : some ⊆ columns) : AgreeOn resolve some row changed :=
  fun name index member => agree name index (subset member)

theorem Reindexed.subset {columns some : List Nat} {group changedGroup : Option (List Row)} {row changed : Row}
    (reindexed : Reindexed resolve columns group changedGroup row changed) (subset : some ⊆ columns) :
    Reindexed resolve some group changedGroup row changed where
  row := reindexed.row.subset subset
  group := by
    cases reindexed.group with
    | none => exact .none
    | some members => exact .some (members.imp fun _ _ agree => agree.subset subset)

theorem Reindexed.left {columns more : List Nat} {group changedGroup : Option (List Row)} {row changed : Row}
    (reindexed : Reindexed resolve (columns ++ more) group changedGroup row changed) :
    Reindexed resolve columns group changedGroup row changed :=
  reindexed.subset (List.subset_append_left _ _)

theorem Reindexed.right {columns more : List Nat} {group changedGroup : Option (List Row)} {row changed : Row}
    (reindexed : Reindexed resolve (columns ++ more) group changedGroup row changed) :
    Reindexed resolve more group changedGroup row changed :=
  reindexed.subset (List.subset_append_right _ _)

mutual

/-- A renumbered expression has the value of the original, if its own columns are in their places. -/
theorem evalIn_reindexed {group changedGroup : Option (List Row)} {row changed : Row} :
    (expression : Expression) → (remapped : Expression) →
      remapColumnsVia resolve expression = .ok remapped →
      Reindexed resolve (collectColumns expression) group changedGroup row changed →
      evalIn changedGroup changed remapped = evalIn group row expression
  | .column name columnIndex type, remapped, ran, reindexed => by
    simp only [remapColumnsVia, bind_eq_ok, pure_eq_ok] at ran
    obtain ⟨place, found, rfl⟩ := ran
    exact reindexed.row name columnIndex (List.mem_singleton_self _) place found
  | .literal value type, remapped, ran, _ => by
    simp only [remapColumnsVia, pure_eq_ok] at ran
    subst ran
    rfl
  | .binary op left right type, remapped, ran, reindexed => by
    simp only [remapColumnsVia, bind_eq_ok, pure_eq_ok] at ran
    obtain ⟨left', leftRan, right', rightRan, rfl⟩ := ran
    rw [evalIn, evalIn, evalIn_reindexed left left' leftRan reindexed.left,
      evalIn_reindexed right right' rightRan reindexed.right]
  | .unary op operand type, remapped, ran, reindexed => by
    simp only [remapColumnsVia, bind_eq_ok, pure_eq_ok] at ran
    obtain ⟨operand', operandRan, rfl⟩ := ran
    rw [evalIn, evalIn, evalIn_reindexed operand operand' operandRan reindexed]
  | .cast operand type, remapped, ran, reindexed => by
    simp only [remapColumnsVia, bind_eq_ok, pure_eq_ok] at ran
    obtain ⟨operand', operandRan, rfl⟩ := ran
    rw [evalIn, evalIn, evalIn_reindexed operand operand' operandRan reindexed]
  | .extract part operand type, remapped, ran, reindexed => by
    simp only [remapColumnsVia, bind_eq_ok, pure_eq_ok] at ran
    obtain ⟨operand', operandRan, rfl⟩ := ran
    rw [evalIn, evalIn, evalIn_reindexed operand operand' operandRan reindexed]
  | .substring operand start length type, remapped, ran, reindexed => by
    simp only [remapColumnsVia, bind_eq_ok, pure_eq_ok] at ran
    obtain ⟨operand', operandRan, rfl⟩ := ran
    rw [evalIn, evalIn, evalIn_reindexed operand operand' operandRan reindexed]
  | .between value lower upper, remapped, ran, reindexed => by
    simp only [remapColumnsVia, bind_eq_ok, pure_eq_ok] at ran
    obtain ⟨value', valueRan, lower', lowerRan, upper', upperRan, rfl⟩ := ran
    rw [evalIn, evalIn, evalIn_reindexed value value' valueRan reindexed.left.left,
      evalIn_reindexed lower lower' lowerRan reindexed.left.right,
      evalIn_reindexed upper upper' upperRan reindexed.right]
  | .like value pattern negated, remapped, ran, reindexed => by
    simp only [remapColumnsVia, bind_eq_ok, pure_eq_ok] at ran
    obtain ⟨value', valueRan, rfl⟩ := ran
    rw [evalIn, evalIn, evalIn_reindexed value value' valueRan reindexed]
  | .caseWhen branches type, remapped, ran, reindexed => by
    simp only [remapColumnsVia, bind_eq_ok, pure_eq_ok] at ran
    obtain ⟨branches', branchesRan, rfl⟩ := ran
    rw [evalIn, evalIn, evalBranchesIn_reindexed branches branches' branchesRan reindexed]
  | .aggregate function argument type, remapped, ran, reindexed => by
    simp only [remapColumnsVia, bind_eq_ok, pure_eq_ok] at ran
    obtain ⟨argument', argumentRan, rfl⟩ := ran
    cases reindexed.group with
    | none => rfl
    | @some rows changedRows members =>
      -- The argument is evaluated on every member of the group, outside any group.
      have same : changedRows.map (fun member => evalIn none member argument') =
          rows.map (fun member => evalIn none member argument) := by
        induction members with
        | nil => rfl
        | cons agree _ hypothesis =>
          rw [List.map_cons, List.map_cons, hypothesis ⟨reindexed.row, .some ‹_›⟩,
            evalIn_reindexed argument argument' argumentRan ⟨agree, .none⟩]
      rw [evalIn, evalIn, same]
  | .countStar type, remapped, ran, reindexed => by
    simp only [remapColumnsVia, pure_eq_ok] at ran
    subst ran
    cases reindexed.group with
    | none => rfl
    | some members => rw [evalIn, evalIn, members.length_eq]

theorem evalBranchesIn_reindexed {group changedGroup : Option (List Row)} {row changed : Row} :
    (branches : CaseBranches) → (remapped : CaseBranches) →
      remapBranchesVia resolve branches = .ok remapped →
      Reindexed resolve (collectBranchColumns branches) group changedGroup row changed →
      evalBranchesIn changedGroup changed remapped = evalBranchesIn group row branches
  | .done, remapped, ran, _ => by
    simp only [remapBranchesVia, pure_eq_ok] at ran
    subst ran
    rfl
  | .otherwise result, remapped, ran, reindexed => by
    simp only [remapBranchesVia, bind_eq_ok, pure_eq_ok] at ran
    obtain ⟨result', resultRan, rfl⟩ := ran
    rw [evalBranchesIn, evalBranchesIn, evalIn_reindexed result result' resultRan reindexed]
  | .when condition result rest, remapped, ran, reindexed => by
    simp only [remapBranchesVia, bind_eq_ok, pure_eq_ok] at ran
    obtain ⟨condition', conditionRan, result', resultRan, rest', restRan, rfl⟩ := ran
    rw [evalBranchesIn, evalBranchesIn,
      evalIn_reindexed condition condition' conditionRan reindexed.left.left,
      evalIn_reindexed result result' resultRan reindexed.left.right,
      evalBranchesIn_reindexed rest rest' restRan reindexed.right]

end

/-- Every place holds in one row what its index holds in another. -/
def Agree (resolve : String → Nat → Except String Nat) (row changed : Row) : Prop :=
  ∀ name index place, resolve name index = .ok place → columnValue changed place = columnValue row index

/-- A renumbered expression has the value of the original, if all columns are in their places. -/
theorem evalIn_remap (members : ∀ row, Agree resolve row (change row)) (group : Option (List Row))
    {row changed : Row} (agree : Agree resolve row changed) (expression remapped : Expression)
    (ran : remapColumnsVia resolve expression = .ok remapped) :
    evalIn (group.map (List.map change)) changed remapped = evalIn group row expression := by
  refine evalIn_reindexed expression remapped ran ⟨fun name index _ => agree name index, ?_⟩
  cases group with
  | none => exact .none
  | some rows =>
    apply Option.Rel.some
    rw [List.forall₂_map_right_iff]
    exact List.forall₂_same.mpr fun row _ name index _ => members row name index

end Expressions

/-! ## Columns in their places -/

/-- A column map sends every position it has a place for to the place where it was put. -/
def Located (columnMap : List (Option Nat)) (placed : List Nat) : Prop :=
  ∀ index place, lookUp columnMap index = some place → placed[place]? = some index

theorem columnValue_pick {placed : List Nat} {place index : Nat} (found : placed[place]? = some index)
    (row : Row) : columnValue (pick placed row) place = columnValue row index := by
  simp [columnValue, pick, List.getD_eq_getElem?_getD, found]

theorem resolveColumn_eq_ok {boundary : List (Option Nat)} {name : String} {index place : Nat}
    (found : resolveColumn boundary name index = .ok place) : lookUp boundary index = some place := by
  unfold resolveColumn at found
  split at found
  · rename_i place' looked
    rw [looked, Except.ok.inj found]
  · cases found

section Places

variable {boundary : List (Option Nat)} {placed : List Nat}

theorem agree_pick (located : Located boundary placed) (row : Row) :
    Agree (resolveColumn boundary) row (pick placed row) := by
  intro name index place found
  exact columnValue_pick (located index place (resolveColumn_eq_ok found)) row

theorem agree_empty (resolve : String → Nat → Except String Nat) : Agree resolve [] [] := by
  intro name index place found
  rfl

theorem eval_remapColumns (located : Located boundary placed) {expression remapped : Expression}
    (ran : remapColumns boundary expression = .ok remapped) (row : Row) :
    eval remapped (pick placed row) = eval expression row :=
  evalIn_remap (agree_pick located) none (agree_pick located row) expression remapped ran

/-- The aggregates of a group, renumbered, over the changed rows of the group. -/
theorem evalIn_remapColumns (located : Located boundary placed) {expression remapped : Expression}
    (ran : remapColumns boundary expression = .ok remapped) (group : List Row) :
    evalIn (some (group.map (pick placed))) [] remapped = evalIn (some group) [] expression :=
  evalIn_remap (agree_pick located) (some group) (agree_empty _) expression remapped ran

theorem remapNamed_cons {item : NamedExpression} {items items' : List NamedExpression}
    (ran : remapNamed boundary (item :: items) = .ok items') :
    ∃ expr rest, remapColumns boundary item.expr = .ok expr ∧ remapNamed boundary items = .ok rest ∧
      items' = { item with expr := expr } :: rest := by
  simp only [remapNamed, List.mapM_cons, bind_eq_ok, pure_eq_ok] at ran
  obtain ⟨item', ⟨expr, exprRan, rfl⟩, rest, restRan, rfl⟩ := ran
  exact ⟨expr, rest, exprRan, restRan, rfl⟩

theorem projectRow_remapNamed (located : Located boundary placed) {items items' : List NamedExpression}
    (ran : remapNamed boundary items = .ok items') (row : Row) :
    projectRow items' (pick placed row) = projectRow items row := by
  induction items generalizing items' with
  | nil =>
    obtain rfl : [] = items' := pure_eq_ok.mp ran
    rfl
  | cons item items hypothesis =>
    obtain ⟨expr, rest, exprRan, restRan, rfl⟩ := remapNamed_cons ran
    simp only [projectRow, List.map_cons] at hypothesis ⊢
    rw [eval_remapColumns located exprRan row, hypothesis restRan]

theorem groupOutput_remapNamed (located : Located boundary placed)
    {aggregates aggregates' : List NamedExpression}
    (ran : remapNamed boundary aggregates = .ok aggregates') (key : Row) (group : List Row) :
    groupOutput aggregates' (key, group.map (pick placed)) = groupOutput aggregates (key, group) := by
  induction aggregates generalizing aggregates' with
  | nil =>
    obtain rfl : [] = aggregates' := pure_eq_ok.mp ran
    rfl
  | cons item aggregates hypothesis =>
    obtain ⟨expr, rest, exprRan, restRan, rfl⟩ := remapNamed_cons ran
    have tail := hypothesis restRan
    simp only [groupOutput, List.append_cancel_left_eq] at tail
    simp only [groupOutput, List.map_cons, evalIn_remapColumns located exprRan, tail]

theorem names_remapNamed {items items' : List NamedExpression}
    (ran : remapNamed boundary items = .ok items') :
    items'.map NamedExpression.name = items.map NamedExpression.name := by
  induction items generalizing items' with
  | nil =>
    obtain rfl : [] = items' := pure_eq_ok.mp ran
    rfl
  | cons item items hypothesis =>
    obtain ⟨expr, rest, _, restRan, rfl⟩ := remapNamed_cons ran
    simp [hypothesis restRan]

theorem length_remapNamed {items items' : List NamedExpression}
    (ran : remapNamed boundary items = .ok items') : items'.length = items.length := by
  simpa using congrArg List.length (names_remapNamed ran)

theorem sortedBefore_remapKeys (located : Located boundary placed) {keys keys' : List SortKey}
    (ran : remapKeys boundary keys = .ok keys') (left right : Row) :
    sortedBefore keys' (pick placed left) (pick placed right) = sortedBefore keys left right := by
  induction keys generalizing keys' with
  | nil =>
    obtain rfl : [] = keys' := pure_eq_ok.mp ran
    rfl
  | cons key keys hypothesis =>
    simp only [remapKeys, List.mapM_cons, bind_eq_ok, pure_eq_ok] at ran
    obtain ⟨key', ⟨expr, exprRan, rfl⟩, rest, restRan, rfl⟩ := ran
    simp only [sortedBefore, eval_remapColumns located exprRan, hypothesis restRan]

end Places

/-! ## Operators -/

section Operators

variable {boundary : List (Option Nat)} {placed : List Nat}

theorem filterRows_remap (located : Located boundary placed) {predicate remapped : Expression}
    (ran : remapColumns boundary predicate = .ok remapped) (input : List Row) :
    filterRows remapped (input.map (pick placed)) = (filterRows predicate input).map (pick placed) := by
  simp only [filterRows, List.filter_map, Function.comp_def, eval_remapColumns located ran]

theorem projectRows_remap (located : Located boundary placed) {items items' : List NamedExpression}
    (ran : remapNamed boundary items = .ok items') (input : List Row) :
    (input.map (pick placed)).map (projectRow items') = input.map (projectRow items) := by
  simp only [List.map_map, Function.comp_def, projectRow_remapNamed located ran]

theorem sortRows_remap (located : Located boundary placed) {keys keys' : List SortKey}
    (ran : remapKeys boundary keys = .ok keys') (input : List Row) :
    sortRows keys' (input.map (pick placed)) = (sortRows keys input).map (pick placed) := by
  refine (List.map_insertionSort _ _ (pick placed) input ?_).symm
  intro left _ right _
  rw [sortedBefore_remapKeys located ran]

/-- Grouping changed rows by a key that reads the same. -/
theorem groupRows_map {change : Row → Row} {key key' : Row → Row} (same : ∀ row, key' (change row) = key row)
    (input : List Row) :
    groupRows key' (input.map change) =
      (groupRows key input).map (fun group => (group.1, group.2.map change)) := by
  simp only [groupRows, List.map_map, Function.comp_def, same, List.filter_map]

theorem aggregateRows_remap (located : Located boundary placed)
    {groupBy groupBy' aggregates aggregates' : List NamedExpression}
    (keysRan : remapNamed boundary groupBy = .ok groupBy')
    (ran : remapNamed boundary aggregates = .ok aggregates') (input : List Row) :
    aggregateRows groupBy' aggregates' (input.map (pick placed)) =
      aggregateRows groupBy aggregates input := by
  have sameEmpty : groupBy'.isEmpty = groupBy.isEmpty := by
    rw [Bool.eq_iff_iff, List.isEmpty_iff, List.isEmpty_iff, ← List.length_eq_zero_iff,
      length_remapNamed keysRan, List.length_eq_zero_iff]
  unfold aggregateRows aggregateGroups
  rw [sameEmpty]
  split
  · simp only [List.map_cons, List.map_nil, groupOutput_remapNamed located ran]
  · rw [groupRows_map (projectRow_remapNamed located keysRan)]
    simp only [List.map_map, Function.comp_def, groupOutput_remapNamed located ran]

end Operators

end KernelLake.RemapProofs
