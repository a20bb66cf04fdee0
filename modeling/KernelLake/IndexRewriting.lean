import KernelLake.ConversionSuccess
import KernelLake.QueryBinding

/-!
The three recursions that give the columns of an expression new indices.

Where an expression has no aggregate they do one thing, and what holds of one of them holds of all. The two
that bring a predicate down to one side of a join leave an aggregate as it stands: their predicates come from
clauses that have none.
-/

namespace KernelLake.IndexRewriting

open KernelLake.Types KernelLake.Expressions KernelLake.Evaluation KernelLake.Optimizer
open KernelLake.PhysicalPlanner KernelLake.QueryBinding KernelLake.RemapProofs KernelLake.ConversionSuccess
open KernelLake.AggregatePlanning KernelLake.ColumnProofs KernelLake.PlanSemantics KernelLake.Library.Results

/-! ## Rewritings -/

/-- A rewritten expression says of the rows with their columns in new places what the original says of the
rows. -/
def SameValue (resolve : String → Nat → Except String Nat) (expression rewritten : Expression) : Prop :=
  ∀ (group changedGroup : Option (List Row)) (row changed : Row),
    Reindexed resolve (collectColumns expression) group changedGroup row changed →
      evalIn changedGroup changed rewritten = evalIn group row expression

/-- Where a column goes when the first `delta` columns are left out. -/
def shiftedPlace (delta : Nat) (_ : String) (index : Nat) : Except String Nat :=
  if delta ≤ index then .ok (index - delta) else .error "column of the other side"

/-- Where a column stays. -/
def ownPlace (_ : String) (index : Nat) : Except String Nat :=
  .ok index

/-! ## One recursion -/

section Shifts

variable {delta : Nat}

theorem shiftedPlace_eq_ok {name : String} {index : Nat} (resolves : Resolves (shiftedPlace delta) [index]) :
    shiftedPlace delta name index = .ok (index - delta) := by
  obtain ⟨place, found⟩ := resolves index (List.mem_singleton_self _) name
  unfold shiftedPlace at found ⊢
  split
  · rfl
  · rename_i before
    rw [if_neg before] at found
    cases found

mutual

/-- Without aggregates, shifting is renumbering. -/
theorem remap_shiftedPlace : (expression : Expression) → hasAggregate expression = false →
    Resolves (shiftedPlace delta) (collectColumns expression) →
    remapColumnsVia (shiftedPlace delta) expression = .ok (shiftColumns delta expression)
  | .column name columnIndex type, _, resolves => by
    rw [remapColumnsVia, shiftedPlace_eq_ok resolves]
    rfl
  | .literal value type, _, _ => rfl
  | .binary op left right type, plain, resolves => by
    obtain ⟨leftPlain, rightPlain⟩ := Bool.or_eq_false_iff.mp plain
    obtain ⟨leftResolves, rightResolves⟩ := resolves_append.mp resolves
    rw [remapColumnsVia, remap_shiftedPlace left leftPlain leftResolves,
      remap_shiftedPlace right rightPlain rightResolves]
    rfl
  | .unary op operand type, plain, resolves => by
    rw [remapColumnsVia, remap_shiftedPlace operand plain resolves]
    rfl
  | .cast operand type, plain, resolves => by
    rw [remapColumnsVia, remap_shiftedPlace operand plain resolves]
    rfl
  | .extract part operand type, plain, resolves => by
    rw [remapColumnsVia, remap_shiftedPlace operand plain resolves]
    rfl
  | .substring operand start length type, plain, resolves => by
    rw [remapColumnsVia, remap_shiftedPlace operand plain resolves]
    rfl
  | .between value lower upper, plain, resolves => by
    obtain ⟨innerPlain, upperPlain⟩ := Bool.or_eq_false_iff.mp plain
    obtain ⟨valuePlain, lowerPlain⟩ := Bool.or_eq_false_iff.mp innerPlain
    obtain ⟨innerResolves, upperResolves⟩ := resolves_append.mp resolves
    obtain ⟨valueResolves, lowerResolves⟩ := resolves_append.mp innerResolves
    rw [remapColumnsVia, remap_shiftedPlace value valuePlain valueResolves,
      remap_shiftedPlace lower lowerPlain lowerResolves, remap_shiftedPlace upper upperPlain upperResolves]
    rfl
  | .like value pattern negated, plain, resolves => by
    rw [remapColumnsVia, remap_shiftedPlace value plain resolves]
    rfl
  | .caseWhen branches type, plain, resolves => by
    rw [remapColumnsVia, remap_shiftedBranches branches plain resolves]
    rfl
  | .aggregate .., plain, _ => by cases plain
  | .countStar _, plain, _ => by cases plain

theorem remap_shiftedBranches : (branches : CaseBranches) → branchesHaveAggregate branches = false →
    Resolves (shiftedPlace delta) (collectBranchColumns branches) →
    remapBranchesVia (shiftedPlace delta) branches = .ok (shiftBranchColumns delta branches)
  | .done, _, _ => rfl
  | .otherwise result, plain, resolves => by
    rw [remapBranchesVia, remap_shiftedPlace result plain resolves]
    rfl
  | .when condition result rest, plain, resolves => by
    obtain ⟨innerPlain, restPlain⟩ := Bool.or_eq_false_iff.mp plain
    obtain ⟨conditionPlain, resultPlain⟩ := Bool.or_eq_false_iff.mp innerPlain
    obtain ⟨innerResolves, restResolves⟩ := resolves_append.mp resolves
    obtain ⟨conditionResolves, resultResolves⟩ := resolves_append.mp innerResolves
    rw [remapBranchesVia, remap_shiftedPlace condition conditionPlain conditionResolves,
      remap_shiftedPlace result resultPlain resultResolves, remap_shiftedBranches rest restPlain restResolves]
    rfl

end

end Shifts

mutual

/-- Renumbering with every column in its own place changes nothing. -/
theorem remap_ownPlace : (expression : Expression) → remapColumnsVia ownPlace expression = .ok expression
  | .column name columnIndex type => rfl
  | .literal value type => rfl
  | .binary op left right type => by
    rw [remapColumnsVia, remap_ownPlace left, remap_ownPlace right]
    rfl
  | .unary op operand type => by
    rw [remapColumnsVia, remap_ownPlace operand]
    rfl
  | .cast operand type => by
    rw [remapColumnsVia, remap_ownPlace operand]
    rfl
  | .extract part operand type => by
    rw [remapColumnsVia, remap_ownPlace operand]
    rfl
  | .substring operand start length type => by
    rw [remapColumnsVia, remap_ownPlace operand]
    rfl
  | .between value lower upper => by
    rw [remapColumnsVia, remap_ownPlace value, remap_ownPlace lower, remap_ownPlace upper]
    rfl
  | .like value pattern negated => by
    rw [remapColumnsVia, remap_ownPlace value]
    rfl
  | .caseWhen branches type => by
    rw [remapColumnsVia, remapBranches_ownPlace branches]
    rfl
  | .aggregate function argument type => by
    rw [remapColumnsVia, remap_ownPlace argument]
    rfl
  | .countStar type => rfl

theorem remapBranches_ownPlace : (branches : CaseBranches) → remapBranchesVia ownPlace branches = .ok branches
  | .done => rfl
  | .otherwise result => by
    rw [remapBranchesVia, remap_ownPlace result]
    rfl
  | .when condition result rest => by
    rw [remapBranchesVia, remap_ownPlace condition, remap_ownPlace result, remapBranches_ownPlace rest]
    rfl

end

/-! ## Evaluation -/

/-- What each of the recursions keeps of an expression, as far as its columns have new places, and what the
value of the expression depends on. -/
structure KeepsValue (expression : Expression) : Prop where
  remapped : ∀ resolve, Resolves resolve (collectColumns expression) →
    ∃ rewritten, remapColumnsVia resolve expression = .ok rewritten ∧ SameValue resolve expression rewritten
  shifted : ∀ delta, Resolves (shiftedPlace delta) (collectColumns expression) →
    SameValue (shiftedPlace delta) expression (shiftColumns delta expression)
  rebased : ∀ combinedFieldCount, Resolves (shiftedPlace combinedFieldCount) (collectColumns expression) →
    SameValue (shiftedPlace combinedFieldCount) expression (rebaseToSourceSchema combinedFieldCount expression)
  collected : SameValue ownPlace expression expression

theorem remapColumnsVia_sameValue {resolve : String → Nat → Except String Nat} {expression rewritten : Expression}
    (ran : remapColumnsVia resolve expression = .ok rewritten) : SameValue resolve expression rewritten :=
  fun _ _ _ _ reindexed => evalIn_reindexed expression rewritten ran reindexed

theorem remapColumnsVia_keeps (expression : Expression) (resolve : String → Nat → Except String Nat)
    (resolves : Resolves resolve (collectColumns expression)) :
    ∃ rewritten, remapColumnsVia resolve expression = .ok rewritten ∧ SameValue resolve expression rewritten := by
  obtain ⟨rewritten, ran⟩ := remapColumnsVia_succeeds expression resolves
  exact ⟨rewritten, ran, remapColumnsVia_sameValue ran⟩

/-- The value of any expression depends on the columns that are collected alone. -/
theorem collectColumns_sameValue (expression : Expression) : SameValue ownPlace expression expression :=
  remapColumnsVia_sameValue (remap_ownPlace expression)

/-- Renumbering keeps the value of every expression, and all three recursions keep the value of an expression
without aggregates. -/
theorem index_rewriting_keeps_value (expression : Expression) :
    ((∀ resolve, Resolves resolve (collectColumns expression) →
        ∃ rewritten, remapColumnsVia resolve expression = .ok rewritten ∧
          SameValue resolve expression rewritten) ∧
      SameValue ownPlace expression expression) ∧
    (hasAggregate expression = false → KeepsValue expression) := by
  refine ⟨⟨remapColumnsVia_keeps expression, collectColumns_sameValue expression⟩, fun plain => ?_⟩
  have shifted : ∀ delta, Resolves (shiftedPlace delta) (collectColumns expression) →
      SameValue (shiftedPlace delta) expression (shiftColumns delta expression) := by
    intro delta resolves
    exact remapColumnsVia_sameValue (remap_shiftedPlace expression plain resolves)
  exact ⟨remapColumnsVia_keeps expression, shifted, shifted, collectColumns_sameValue expression⟩

/-- `SUM(b)` where `b` is the second column of a joined row. -/
def summed : Expression := .aggregate .sum (.column "b" 1 int64Type) int64Type

theorem index_rewriting_keeps_value_column :
    KeepsValue (.unary .negate (.column "b" 1 int64Type) int64Type) ∧
      ∃ rewritten, remapColumnsVia (shiftedPlace 1) summed = .ok rewritten ∧
        SameValue (shiftedPlace 1) summed rewritten := by
  refine ⟨(index_rewriting_keeps_value _).2 rfl, (index_rewriting_keeps_value summed).1.1 _ ?_⟩
  intro index member name
  obtain rfl := List.mem_singleton.mp member
  exact ⟨0, rfl⟩

/-- A shifted aggregate still asks for the second column, which the row of one side does not have. -/
theorem shifted_aggregate_keeps_index : ¬ ∀ expression : Expression, KeepsValue expression := by
  intro keeps
  have resolves : Resolves (shiftedPlace 1) (collectColumns summed) := by
    intro index member name
    obtain rfl := List.mem_singleton.mp member
    exact ⟨0, rfl⟩
  have moved : AgreeOn (shiftedPlace 1) (collectColumns summed) [.int 5, .int 7] [.int 7] := by
    intro name index member place found
    obtain rfl := List.mem_singleton.mp member
    obtain rfl : 0 = place := Except.ok.inj found
    rfl
  have same := (keeps summed).shifted 1 resolves (some [[.int 5, .int 7]]) (some [[.int 7]])
    [.int 5, .int 7] [.int 7] ⟨moved, .some (.cons moved .nil)⟩
  exact absurd same (by decide +kernel)

end KernelLake.IndexRewriting
