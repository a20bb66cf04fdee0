import KernelLake.PhysicalPlannerProofs
import KernelLake.RequiredColumns

/-!
Conversion meets no missing column.

A converted plan remembers where its columns went in a map that the operators above search for. The
map may be that of a scan below a projection that was left out, and then it has more positions than
the plan has columns; `Found` says that it knows every column in hand that the plan has, wherever it
comes from. The numbers carried past a projection are what makes this so: the scan below is asked for
them as well.
-/

namespace KernelLake.ConversionSuccess

open KernelLake.Types KernelLake.Expressions KernelLake.LogicalPlans KernelLake.Optimizer
open KernelLake.PhysicalPlans KernelLake.PhysicalPlanner KernelLake.RemapProofs KernelLake.Layouts
open KernelLake.PhysicalPlannerProofs KernelLake.ScanAnnotation KernelLake.RequiredColumns
open KernelLake.Library.Results
open KernelLake.Binder (keepsRight)

/-! ## Renumbering -/

section Renumbering

variable {resolve : String → Nat → Except String Nat}

/-- Every column in a list has a place. -/
def Resolves (resolve : String → Nat → Except String Nat) (indices : List Nat) : Prop :=
  ∀ index ∈ indices, ∀ name, ∃ place, resolve name index = .ok place

theorem resolves_append {first second : List Nat} :
    Resolves resolve (first ++ second) ↔ Resolves resolve first ∧ Resolves resolve second :=
  List.forall_mem_append

mutual

theorem remapColumnsVia_succeeds : (expression : Expression) → Resolves resolve (collectColumns expression) →
    ∃ remapped, remapColumnsVia resolve expression = .ok remapped
  | .column name columnIndex type, resolves => by
    obtain ⟨place, found⟩ := resolves columnIndex (List.mem_singleton.mpr rfl) name
    exact ⟨_, by rw [remapColumnsVia, found]; rfl⟩
  | .literal value type, _ => ⟨_, rfl⟩
  | .binary op left right type, resolves => by
    obtain ⟨left', leftRan⟩ := remapColumnsVia_succeeds left (resolves_append.mp resolves).1
    obtain ⟨right', rightRan⟩ := remapColumnsVia_succeeds right (resolves_append.mp resolves).2
    exact ⟨_, by rw [remapColumnsVia, leftRan, rightRan]; rfl⟩
  | .unary op operand type, resolves => by
    obtain ⟨operand', ran⟩ := remapColumnsVia_succeeds operand resolves
    exact ⟨_, by rw [remapColumnsVia, ran]; rfl⟩
  | .cast operand type, resolves => by
    obtain ⟨operand', ran⟩ := remapColumnsVia_succeeds operand resolves
    exact ⟨_, by rw [remapColumnsVia, ran]; rfl⟩
  | .extract part operand type, resolves => by
    obtain ⟨operand', ran⟩ := remapColumnsVia_succeeds operand resolves
    exact ⟨_, by rw [remapColumnsVia, ran]; rfl⟩
  | .substring operand start length type, resolves => by
    obtain ⟨operand', ran⟩ := remapColumnsVia_succeeds operand resolves
    exact ⟨_, by rw [remapColumnsVia, ran]; rfl⟩
  | .between value lower upper, resolves => by
    obtain ⟨inner, last⟩ := resolves_append.mp resolves
    obtain ⟨value', valueRan⟩ := remapColumnsVia_succeeds value (resolves_append.mp inner).1
    obtain ⟨lower', lowerRan⟩ := remapColumnsVia_succeeds lower (resolves_append.mp inner).2
    obtain ⟨upper', upperRan⟩ := remapColumnsVia_succeeds upper last
    exact ⟨_, by rw [remapColumnsVia, valueRan, lowerRan, upperRan]; rfl⟩
  | .like value pattern negated, resolves => by
    obtain ⟨value', ran⟩ := remapColumnsVia_succeeds value resolves
    exact ⟨_, by rw [remapColumnsVia, ran]; rfl⟩
  | .caseWhen branches type, resolves => by
    obtain ⟨branches', ran⟩ := remapBranchesVia_succeeds branches resolves
    exact ⟨_, by rw [remapColumnsVia, ran]; rfl⟩
  | .aggregate function argument type, resolves => by
    obtain ⟨argument', ran⟩ := remapColumnsVia_succeeds argument resolves
    exact ⟨_, by rw [remapColumnsVia, ran]; rfl⟩
  | .countStar type, _ => ⟨_, rfl⟩

theorem remapBranchesVia_succeeds : (branches : CaseBranches) →
    Resolves resolve (collectBranchColumns branches) →
    ∃ remapped, remapBranchesVia resolve branches = .ok remapped
  | .done, _ => ⟨_, rfl⟩
  | .otherwise result, resolves => by
    obtain ⟨result', ran⟩ := remapColumnsVia_succeeds result resolves
    exact ⟨_, by rw [remapBranchesVia, ran]; rfl⟩
  | .when condition result rest, resolves => by
    obtain ⟨inner, last⟩ := resolves_append.mp resolves
    obtain ⟨condition', conditionRan⟩ := remapColumnsVia_succeeds condition (resolves_append.mp inner).1
    obtain ⟨result', resultRan⟩ := remapColumnsVia_succeeds result (resolves_append.mp inner).2
    obtain ⟨rest', restRan⟩ := remapBranchesVia_succeeds rest last
    exact ⟨_, by rw [remapBranchesVia, conditionRan, resultRan, restRan]; rfl⟩

end

end Renumbering

/-- A column map has a place for every column in a list. -/
def Knows (boundary : List (Option Nat)) (indices : List Nat) : Prop :=
  ∀ index ∈ indices, ∃ place, lookUp boundary index = some place

theorem resolves_of_knows {boundary : List (Option Nat)} {indices : List Nat}
    (knows : Knows boundary indices) : Resolves (resolveColumn boundary) indices := by
  intro index member name
  obtain ⟨place, found⟩ := knows index member
  exact ⟨place, by rw [resolveColumn, found]⟩

theorem remapColumns_succeeds {boundary : List (Option Nat)} {expression : Expression}
    (knows : Knows boundary (collectColumns expression)) :
    ∃ remapped, remapColumns boundary expression = .ok remapped :=
  remapColumnsVia_succeeds expression (resolves_of_knows knows)

theorem remapNamed_succeeds {boundary : List (Option Nat)} {items : List NamedExpression}
    (knows : Knows boundary (collectItemColumns items)) :
    ∃ remapped, remapNamed boundary items = .ok remapped := by
  refine exists_mapM (fun item member => ?_)
  obtain ⟨expr, ran⟩ := remapColumns_succeeds (fun index inExpr =>
    knows index (List.mem_flatMap.mpr ⟨item, member, inExpr⟩))
  exact ⟨_, by rw [ran]; rfl⟩

theorem remapKeys_succeeds {boundary : List (Option Nat)} {keys : List SortKey}
    (knows : Knows boundary (collectKeyColumns keys)) :
    ∃ remapped, remapKeys boundary keys = .ok remapped := by
  refine exists_mapM (fun key member => ?_)
  obtain ⟨expr, ran⟩ := remapColumns_succeeds (fun index inExpr =>
    knows index (List.mem_flatMap.mpr ⟨key, member, inExpr⟩))
  exact ⟨_, by rw [ran]; rfl⟩

/-! ## Scans -/

theorem mem_keptColumns {source : LogicalScan} {index : Nat} {field : Field}
    (isField : source.schema[index]? = some field) (required : field.name ∈ source.requiredColumns) :
    index ∈ keptColumns source := by
  have inRange : index < source.schema.length := (List.getElem?_eq_some_iff.mp isField).1
  have position : index ∈ requiredPositions source := by
    simp only [requiredPositions, List.mem_filter, List.mem_range]
    exact ⟨inRange, by simpa [isField] using required⟩
  unfold keptColumns
  split
  · rename_i none
    simp only [Bool.and_eq_true, List.isEmpty_iff] at none
    rw [none.1] at position
    cases position
  · exact position

theorem length_keptColumns (source : LogicalScan) : (keptColumns source).length ≤ source.schema.length := by
  unfold keptColumns
  split
  · rename_i nonEmpty
    simp only [Bool.and_eq_true, Bool.not_eq_true', List.isEmpty_eq_false_iff] at nonEmpty
    exact List.length_pos_iff.mpr nonEmpty.2
  · exact (List.length_filter_le _ _).trans_eq (List.length_range)

/-- A scan's map knows every column the scan is asked for. -/
theorem knows_convertScan {files : ResolvedFiles} {source : LogicalScan} {required : List Nat}
    (asked : ∀ index ∈ required, ∃ field, source.schema[index]? = some field ∧
      field.name ∈ source.requiredColumns) :
    Knows (findScanBoundary (.parquetScan (convertScan files source))) required := by
  intro index member
  obtain ⟨field, isField, isRequired⟩ := asked index member
  have inRange : index < source.schema.length := (List.getElem?_eq_some_iff.mp isField).1
  have kept := mem_keptColumns isField isRequired
  have found : ((keptColumns source).findIdx? (· == index)).isSome = true := by
    rw [List.findIdx?_isSome]
    exact List.any_eq_true.mpr ⟨index, kept, beq_self_eq_true index⟩
  obtain ⟨place, isPlace⟩ := Option.isSome_iff_exists.mp found
  exact ⟨place, by simp [convertScan, findScanBoundary, lookUp, inRange, isPlace]⟩

/-! ## Converted plans -/

/-- A converted plan is no wider than the logical one, and the map found by searching it knows the
columns in hand. -/
structure Found (required : List Nat) (plan : LogicalPlan) (physical : PhysicalPlan) : Prop where
  narrow : physical.width ≤ plan.width
  knows : Knows (findScanBoundary physical) (required.filter (fun index => index < plan.width))
  full : fullRow plan = true → (findScanBoundary physical).length = plan.width

theorem Found.within {required : List Nat} {plan : LogicalPlan} {physical : PhysicalPlan}
    (found : Found required plan physical) {indices : List Nat} (inHand : indices ⊆ required)
    (within : refersWithin plan.width indices) : Knows (findScanBoundary physical) indices := by
  intro index member
  exact found.knows index (List.mem_filter.mpr ⟨inHand member, by simpa using within index member⟩)

/-- An operator that keeps its input's columns keeps its map. -/
theorem Found.keep {required wider : List Nat} {child plan : LogicalPlan}
    {child' physical : PhysicalPlan} (found : Found wider child child') (carried : required ⊆ wider)
    (schema : plan.outputSchema = child.outputSchema)
    (physicalSchema : physical.outputSchema = child'.outputSchema)
    (boundary : findScanBoundary physical = findScanBoundary child') (full : fullRow plan = fullRow child) :
    Found required plan physical where
  narrow := by
    rw [PhysicalPlan.width, LogicalPlan.width, schema, physicalSchema]
    exact found.narrow
  knows := by
    rw [boundary, LogicalPlan.width, schema]
    intro index member
    obtain ⟨inRequired, inside⟩ := List.mem_filter.mp member
    exact found.knows index (List.mem_filter.mpr ⟨carried inRequired, inside⟩)
  full isFull := by
    rw [boundary, LogicalPlan.width, schema]
    exact found.full (full ▸ isFull)

theorem knows_identityMap {width : Nat} {indices : List Nat} (within : refersWithin width indices) :
    Knows (identityMap width) indices := by
  intro index member
  exact ⟨index, by simp [lookUp, identityMap, within index member]⟩

/-- An operator that computes all its columns has the identity for its map. -/
theorem found_identity {required : List Nat} {plan : LogicalPlan} {physical : PhysicalPlan}
    (width : physical.width = plan.width) (boundary : findScanBoundary physical = identityMap plan.width) :
    Found required plan physical where
  narrow := width.le
  knows := by
    rw [boundary]
    refine knows_identityMap (fun index member => ?_)
    simpa using (List.mem_filter.mp member).2
  full _ := by simp [boundary, identityMap]

/-- Only bare columns are left out. -/
theorem bare_of_identity {boundary : Option (List (Option Nat))} {items items' : List NamedExpression}
    {schema : Schema} (ran : remapItemsFor boundary items = .ok items')
    (identity : isIdentityProjection items' schema = true) :
    items.all (fun item => (copiedColumn item.expr).isSome) = true := by
  refine List.all_eq_true.mpr (fun item member => ?_)
  obtain ⟨position, held⟩ := List.mem_iff_getElem?.mp member
  have inItems : position < items'.length := by
    rw [length_remapItemsFor ran]
    exact (List.getElem?_eq_some_iff.mp held).1
  have held' := List.getElem?_eq_getElem inItems
  obtain ⟨⟨name, type, shape⟩, -⟩ := isIdentityProjection_item identity held'
  cases boundary with
  | none =>
    obtain rfl : items = items' := pure_eq_ok.mp ran
    rw [Option.some.inj (held.symm.trans held'), shape]
    rfl
  | some columnMap =>
    have itemRan := remapNamed_item ran held held'
    rw [shape] at itemRan
    obtain ⟨index, copied, _⟩ := remapColumns_column itemRan
    rw [copied]
    rfl

theorem width_projection (child : LogicalPlan) (items : List NamedExpression) :
    (LogicalPlan.projection child items).width = items.length := by
  simp [LogicalPlan.width, LogicalPlan.outputSchema, namedFields]

/-- Below a projection that is left out, the map knows the numbers that were carried past it. -/
theorem found_elided {required wider : List Nat} {child : LogicalPlan} {child' : PhysicalPlan}
    {boundary : Option (List (Option Nat))} {items items' : List NamedExpression}
    (found : Found wider child child') (carried : required ⊆ wider)
    (ran : remapItemsFor boundary items = .ok items')
    (identity : isIdentityProjection items' child'.outputSchema = true) :
    Found required (.projection child items) child' := by
  have width : (LogicalPlan.projection child items).width = child'.width := by
    rw [width_projection, ← length_remapItemsFor ran]
    exact isIdentityProjection_length identity
  refine ⟨width.ge, ?_, fun full => ?_⟩
  · intro index member
    obtain ⟨inRequired, inside⟩ := List.mem_filter.mp member
    refine found.knows index (List.mem_filter.mpr ⟨carried inRequired, ?_⟩)
    have narrow := found.narrow
    simp only [decide_eq_true_eq] at inside ⊢
    omega
  · have notLonger : ¬ child.width < items.length := by
      rw [width_projection] at width
      rw [width]
      exact Nat.not_lt.mpr found.narrow
    simp only [fullRow, bare_of_identity ran identity, notLonger, Bool.not_true, decide_false, Bool.false_or,
      Bool.and_eq_true, decide_eq_true_eq] at full
    rw [found.full full.2, width_projection, full.1]

theorem referencesScanSchema_annotateScan {plan annotated : LogicalPlan} {required : List Nat}
    {predicates : List PushablePredicate} (ran : annotateScan required predicates plan = some annotated) :
    referencesScanSchema annotated = referencesScanSchema plan ∧
      annotated.isAggregate = plan.isAggregate := by
  induction plan generalizing required predicates annotated with
  | scan source =>
    obtain ⟨names, _, rfl⟩ := Option.map_eq_some_iff.mp ran
    exact ⟨rfl, rfl⟩
  | join left right leftKeyIndex rightKeyIndex joinType residualPredicate ihLeft ihRight =>
    obtain ⟨left', leftRan, right', rightRan, rfl⟩ := by
      simpa [annotateScan, Option.bind_eq_some_iff] using ran
    exact ⟨rfl, rfl⟩
  | filter child predicate hypothesis =>
    obtain ⟨child', childRan, rfl⟩ := Option.map_eq_some_iff.mp ran
    exact ⟨congrArg (!·) (hypothesis childRan).2, rfl⟩
  | projection child items hypothesis =>
    obtain ⟨child', childRan, rfl⟩ := Option.map_eq_some_iff.mp ran
    exact ⟨rfl, rfl⟩
  | aggregate child groupBy aggregates hypothesis =>
    obtain ⟨child', childRan, rfl⟩ := Option.map_eq_some_iff.mp ran
    exact ⟨rfl, rfl⟩
  | sort child keys hypothesis =>
    obtain ⟨child', childRan, rfl⟩ := Option.map_eq_some_iff.mp ran
    exact ⟨(hypothesis childRan).1, rfl⟩
  | limit child limit hypothesis =>
    obtain ⟨child', childRan, rfl⟩ := Option.map_eq_some_iff.mp ran
    exact ⟨(hypothesis childRan).1, rfl⟩

/-- The references of an operator over a converted plan resolve, if they have to. -/
theorem boundaryFor_knows {required : List Nat} {child annotated : LogicalPlan} {child' : PhysicalPlan}
    (found : Found required child child')
    (same : referencesScanSchema annotated = referencesScanSchema child) (indices : List Nat)
    (inHand : referencesScanSchema child = true → indices ⊆ required)
    (within : referencesScanSchema child = true → refersWithin child.width indices)
    {boundary : List (Option Nat)} (isBoundary : boundaryFor annotated child' = some boundary) :
    Knows boundary indices := by
  unfold boundaryFor at isBoundary
  split at isBoundary
  · rename_i references
    rw [same] at references
    rw [← Option.some.inj isBoundary]
    exact found.within (inHand references) (within references)
  · cases isBoundary

theorem remapItemsFor_succeeds {boundary : Option (List (Option Nat))} {items : List NamedExpression}
    (knows : ∀ columnMap, boundary = some columnMap → Knows columnMap (collectItemColumns items)) :
    ∃ items', remapItemsFor boundary items = .ok items' := by
  cases boundary with
  | none => exact ⟨items, rfl⟩
  | some columnMap => exact remapNamed_succeeds (knows columnMap rfl)

/-! ## Joins -/

section Joins

variable {left right : LogicalPlan} {left' right' : PhysicalPlan} {leftKeyIndex rightKeyIndex : Nat}
  {joinType : JoinType} {residualPredicate : Option Expression} {required referred : List Nat}

/-- The columns in hand on the left of a join are known to the left map, the others to the right one. -/
theorem lookUp_sides (leftFound : Found (leftRequired left.width leftKeyIndex referred) left left')
    (rightFound : Found (rightRequired left.width rightKeyIndex referred) right right') {index : Nat}
    (inHand : index ∈ referred) (within : index < left.width + right.width) :
    if index < left.width then ∃ place, lookUp (findScanBoundary left') index = some place
    else ∃ place, lookUp (findScanBoundary right') (index - left.width) = some place := by
  split
  · rename_i inLeft
    refine leftFound.knows index (List.mem_filter.mpr ⟨List.mem_cons_of_mem _ ?_, by simpa using inLeft⟩)
    exact List.mem_filter.mpr ⟨inHand, by simpa using inLeft⟩
  · rename_i beyond
    refine rightFound.knows _ (List.mem_filter.mpr ⟨List.mem_cons_of_mem _ ?_, ?_⟩)
    · refine List.mem_map.mpr ⟨index, List.mem_filter.mpr ⟨inHand, ?_⟩, rfl⟩
      simpa using beyond
    · simp only [decide_eq_true_eq]
      omega

theorem residual_succeeds (leftFound : Found (leftRequired left.width leftKeyIndex referred) left left')
    (rightFound : Found (rightRequired left.width rightKeyIndex referred) right right')
    (fullLeft : fullRow left = true)
    (inHand : collectResidualColumns residualPredicate ⊆ referred)
    (within : refersWithin (left.width + right.width) (collectResidualColumns residualPredicate)) :
    ∃ residual, residualPredicate.mapM (remapJoinResidualPredicate (findScanBoundary left')
      (findScanBoundary right') left'.width) = .ok residual := by
  cases residualPredicate with
  | none => exact ⟨none, rfl⟩
  | some predicate =>
    have resolves : Resolves (resolveResidual (findScanBoundary left') (findScanBoundary right') left'.width)
        (collectColumns predicate) := by
      intro index member name
      have known := lookUp_sides leftFound rightFound (inHand member) (within index member)
      unfold resolveResidual
      rw [leftFound.full fullLeft]
      split at known
      · rename_i inLeft
        obtain ⟨place, isPlace⟩ := known
        exact ⟨place, by rw [if_pos inLeft, isPlace]⟩
      · rename_i beyond
        obtain ⟨place, isPlace⟩ := known
        exact ⟨left'.width + place, by rw [if_neg beyond, isPlace]⟩
    obtain ⟨remapped, ran⟩ := remapColumnsVia_succeeds predicate resolves
    exact ⟨some remapped, optionMapM_eq_ok.mpr (.inr ⟨predicate, remapped, rfl, rfl, ran⟩)⟩

/-- The combined map of a join knows the columns in hand that the join delivers. -/
theorem knows_combined (leftFound : Found (leftRequired left.width leftKeyIndex referred) left left')
    (rightFound : Found (rightRequired left.width rightKeyIndex referred) right right')
    (fullLeft : fullRow left = true) (inHand : required ⊆ referred) (swap : Bool) :
    Knows (combinedColumnMap swap joinType (findScanBoundary left') (findScanBoundary right') left'.width
        right'.width)
      (required.filter (fun index => index <
        (LogicalPlan.join left right leftKeyIndex rightKeyIndex joinType residualPredicate).width)) := by
  intro index member
  obtain ⟨inRequired, inside⟩ := List.mem_filter.mp member
  simp only [decide_eq_true_eq] at inside
  have within := inside.trans_le (width_join_le ..)
  have known := lookUp_sides leftFound rightFound (inHand inRequired) within
  have leftLength := leftFound.full fullLeft
  unfold combinedColumnMap
  simp only
  split
  · -- A semi or anti join delivers left columns only.
    rename_i leftOnly
    have inLeft : index < left.width := by
      simp only [LogicalPlan.width, LogicalPlan.outputSchema, joinSchema_length] at inside ⊢
      cases joinType with
      | leftSemi => exact inside
      | leftAnti => exact inside
      | _ => simp at leftOnly
    rw [if_pos inLeft] at known
    obtain ⟨place, isPlace⟩ := known
    exact ⟨_, by rw [lookUp_map, isPlace]; rfl⟩
  · rw [lookUp_append, List.length_map, leftLength]
    split at known
    · rename_i inLeft
      obtain ⟨place, isPlace⟩ := known
      exact ⟨_, by rw [if_pos inLeft, lookUp_map, isPlace]; rfl⟩
    · rename_i beyond
      obtain ⟨place, isPlace⟩ := known
      exact ⟨_, by rw [if_neg beyond, lookUp_map, isPlace]; rfl⟩

theorem length_combined (fullRight : keepsRight joinType = true →
      (findScanBoundary right').length = right.width)
    (leftLength : (findScanBoundary left').length = left.width) (swap : Bool) :
    (combinedColumnMap swap joinType (findScanBoundary left') (findScanBoundary right') left'.width
        right'.width).length =
      (LogicalPlan.join left right leftKeyIndex rightKeyIndex joinType residualPredicate).width := by
  simp only [combinedColumnMap, LogicalPlan.width, LogicalPlan.outputSchema, joinSchema_length]
    at fullRight leftLength ⊢
  cases joinType with
  | inner => simp [leftLength, fullRight rfl]
  | leftOuter => simp [leftLength, fullRight rfl]
  | leftSemi => simp [leftLength]
  | leftAnti => simp [leftLength]

theorem width_joinSchema_le {first second : Schema} {firstPlan secondPlan : LogicalPlan}
    (firstNarrow : first.length ≤ firstPlan.width) (secondNarrow : second.length ≤ secondPlan.width) :
    (joinSchema first second joinType).length ≤
      (LogicalPlan.join firstPlan secondPlan leftKeyIndex rightKeyIndex joinType residualPredicate).width := by
  simp only [LogicalPlan.width, LogicalPlan.outputSchema, joinSchema_length] at firstNarrow secondNarrow ⊢
  cases joinType <;> simp only <;> omega

theorem convertJoin_succeeds (required : List Nat)
    (leftFound : Found (leftRequired left.width leftKeyIndex referred) left left')
    (rightFound : Found (rightRequired left.width rightKeyIndex referred) right right')
    (fullLeft : fullRow left = true) (leftKey : leftKeyIndex < left.width)
    (rightKey : rightKeyIndex < right.width) (inHand : required ⊆ referred)
    (residualInHand : collectResidualColumns residualPredicate ⊆ referred)
    (within : refersWithin (left.width + right.width) (collectResidualColumns residualPredicate)) :
    ∃ physical, convertJoin left' right' leftKeyIndex rightKeyIndex joinType residualPredicate = .ok physical ∧
      Found required (.join left right leftKeyIndex rightKeyIndex joinType residualPredicate) physical := by
  obtain ⟨leftPlace, leftHere⟩ := leftFound.knows leftKeyIndex
    (List.mem_filter.mpr ⟨List.mem_cons_self .., by simpa using leftKey⟩)
  obtain ⟨rightPlace, rightHere⟩ := rightFound.knows rightKeyIndex
    (List.mem_filter.mpr ⟨List.mem_cons_self .., by simpa using rightKey⟩)
  obtain ⟨residual, residualRan⟩ :=
    residual_succeeds leftFound rightFound fullLeft residualInHand within
  have full (isFull : fullRow (.join left right leftKeyIndex rightKeyIndex joinType residualPredicate) = true)
      (keeps : keepsRight joinType = true) : (findScanBoundary right').length = right.width := by
    simp only [fullRow, keeps, Bool.not_true, Bool.false_or] at isFull
    exact rightFound.full isFull
  have leftNarrow := leftFound.narrow
  have rightNarrow := rightFound.narrow
  unfold convertJoin
  simp only [leftHere, rightHere, residualRan]
  cases swap : swapForBuildSide joinType left' right' with
  | true =>
    refine ⟨_, rfl, ?_, knows_combined leftFound rightFound fullLeft inHand true, fun isFull =>
      length_combined (full isFull) (leftFound.full fullLeft) true⟩
    obtain rfl := swapForBuildSide_inner swap
    simp only [PhysicalPlan.width, PhysicalPlan.outputSchema, LogicalPlan.width, LogicalPlan.outputSchema,
      joinSchema_length] at leftNarrow rightNarrow ⊢
    omega
  | false =>
    exact ⟨_, rfl, width_joinSchema_le leftNarrow rightNarrow,
      knows_combined leftFound rightFound fullLeft inHand false, fun isFull =>
        length_combined (full isFull) (leftFound.full fullLeft) false⟩

end Joins

/-! ## Plans -/

/-- The references of a filter or a projection are collected, unless they are to an aggregation. -/
theorem collected_unless_aggregate {child : LogicalPlan} (required collected : List Nat)
    (references : referencesScanSchema child = true) :
    collected ⊆ if child.isAggregate then required else required ++ collected := by
  cases child with
  | aggregate child groupBy aggregates => cases references
  | _ => exact List.subset_append_right _ _

/-- Conversion of an annotated plan finds every column it looks for. -/
theorem convert_annotated {files : ResolvedFiles} {plan annotated : LogicalPlan} {required : List Nat}
    {predicates : List PushablePredicate} (ran : annotateScan required predicates plan = some annotated)
    (bound : inRange plan) (isAligned : aligned plan = true) :
    ∃ physical, convert files annotated = .ok physical ∧ Found required plan physical := by
  induction plan generalizing required predicates annotated with
  | scan source =>
    obtain ⟨names, namesRan, rfl⟩ := Option.map_eq_some_iff.mp ran
    refine ⟨_, rfl, ?_, ?_, fun _ => ?_⟩
    · refine (List.length_filterMap_le _ _).trans ?_
      exact length_keptColumns { source with requiredColumns := names, pushablePredicates := predicates }
    · refine knows_convertScan (fun index member => ?_)
      exact mem_requiredNames namesRan (List.mem_filter.mp member).1
    · simp [convertScan, findScanBoundary, LogicalPlan.width, LogicalPlan.outputSchema]
  | join left right leftKeyIndex rightKeyIndex joinType residualPredicate ihLeft ihRight =>
    obtain ⟨left', leftRan, right', rightRan, rfl⟩ := by
      simpa [annotateScan, Option.bind_eq_some_iff] using ran
    obtain ⟨leftBound, rightBound, leftKey, rightKey, residual⟩ := bound
    simp only [aligned, Bool.and_eq_true] at isAligned
    obtain ⟨leftPlan, leftConverted, leftFound⟩ := ihLeft leftRan leftBound isAligned.1.1
    obtain ⟨rightPlan, rightConverted, rightFound⟩ := ihRight rightRan rightBound isAligned.1.2
    obtain ⟨physical, converted, found⟩ := convertJoin_succeeds required leftFound rightFound
      isAligned.2 leftKey rightKey (List.subset_append_left _ _) (List.subset_append_right _ _) residual
    exact ⟨physical, by rw [convert, leftConverted, rightConverted]; exact converted, found⟩
  | filter child predicate hypothesis =>
    obtain ⟨annotated', childRan, rfl⟩ := Option.map_eq_some_iff.mp ran
    obtain ⟨child', converted, found⟩ := hypothesis childRan bound.1 isAligned
    have carried : required ⊆
        if child.isAggregate then required else required ++ collectColumns predicate := by
      split
      · exact List.Subset.refl _
      · exact List.subset_append_left _ _
    cases isBoundary : boundaryFor annotated' child' with
    | none =>
      exact ⟨.filter child' predicate, by simp only [convert, converted, bind, Except.bind, isBoundary]; rfl,
        found.keep carried rfl rfl rfl rfl⟩
    | some columnMap =>
      obtain ⟨predicate', predicateRan⟩ := remapColumns_succeeds (boundaryFor_knows found
        (referencesScanSchema_annotateScan childRan).1 _ (collected_unless_aggregate required _)
        (fun references => (bound.2 references).2) isBoundary)
      exact ⟨.filter child' predicate',
        by simp only [convert, converted, bind, Except.bind, isBoundary, predicateRan]; rfl,
        found.keep carried rfl rfl rfl rfl⟩
  | projection child items hypothesis =>
    obtain ⟨annotated', childRan, rfl⟩ := Option.map_eq_some_iff.mp ran
    obtain ⟨child', converted, found⟩ := hypothesis childRan bound.1 isAligned
    have carried : required ⊆
        if child.isAggregate then required else required ++ collectItemColumns items := by
      split
      · exact List.Subset.refl _
      · exact List.subset_append_left _ _
    obtain ⟨items', itemsRan⟩ := remapItemsFor_succeeds (fun columnMap =>
      boundaryFor_knows found (referencesScanSchema_annotateScan childRan).1 _
        (collected_unless_aggregate required (collectItemColumns items)) bound.2)
    cases identity : isIdentityProjection items' child'.outputSchema with
    | true =>
      exact ⟨child', by simp only [convert, converted, bind, Except.bind, itemsRan, identity]; rfl,
        found_elided found carried itemsRan identity⟩
    | false =>
      refine ⟨.projection child' items',
        by simp only [convert, converted, bind, Except.bind, itemsRan, identity]; rfl, ?_⟩
      have width : (PhysicalPlan.projection child' items').width =
          (LogicalPlan.projection child items).width := by
        rw [width_projection, ← length_remapItemsFor itemsRan]
        simp [PhysicalPlan.width, PhysicalPlan.outputSchema, namedFields]
      exact found_identity width (congrArg identityMap width)
  | aggregate child groupBy aggregates hypothesis =>
    obtain ⟨annotated', childRan, rfl⟩ := Option.map_eq_some_iff.mp ran
    obtain ⟨child', converted, found⟩ := hypothesis childRan bound.1 isAligned
    have same := (referencesScanSchema_annotateScan childRan).1
    obtain ⟨groupBy', groupByRan⟩ := remapItemsFor_succeeds (fun columnMap =>
      boundaryFor_knows found same (collectItemColumns groupBy)
        (fun _ => List.subset_append_of_subset_left _ (List.subset_append_right _ _))
        (fun references => (refersWithin_append.mp (bound.2 references)).1))
    obtain ⟨aggregates', aggregatesRan⟩ := remapItemsFor_succeeds (fun columnMap =>
      boundaryFor_knows found same (collectItemColumns aggregates)
        (fun _ => List.subset_append_right _ _)
        (fun references => (refersWithin_append.mp (bound.2 references)).2))
    have groupWidth := length_remapItemsFor groupByRan
    have aggregateWidth := length_remapItemsFor aggregatesRan
    cases scalar : groupBy.isEmpty with
    | true =>
      refine ⟨.scalarAggregate child' aggregates',
        by simp only [convert, converted, bind, Except.bind, aggregatesRan, scalar]; rfl, ?_⟩
      have width : (PhysicalPlan.scalarAggregate child' aggregates').width =
          (LogicalPlan.aggregate child groupBy aggregates).width := by
        simp [PhysicalPlan.width, PhysicalPlan.outputSchema, LogicalPlan.width, LogicalPlan.outputSchema,
          namedFields, List.isEmpty_iff.mp scalar, aggregateWidth]
      exact found_identity width (congrArg identityMap width)
    | false =>
      refine ⟨.hashAggregate child' groupBy' aggregates',
        by simp only [convert, converted, bind, Except.bind, aggregatesRan, groupByRan, scalar]; rfl, ?_⟩
      have width : (PhysicalPlan.hashAggregate child' groupBy' aggregates').width =
          (LogicalPlan.aggregate child groupBy aggregates).width := by
        simp [PhysicalPlan.width, PhysicalPlan.outputSchema, LogicalPlan.width, LogicalPlan.outputSchema,
          namedFields, groupWidth, aggregateWidth]
      exact found_identity width (congrArg identityMap width)
  | sort child keys hypothesis =>
    obtain ⟨annotated', childRan, rfl⟩ := Option.map_eq_some_iff.mp ran
    obtain ⟨child', converted, found⟩ := hypothesis childRan bound.1 isAligned
    have carried : required ⊆ required ++ collectKeyColumns keys := List.subset_append_left _ _
    cases isBoundary : boundaryFor annotated' child' with
    | none =>
      exact ⟨.sort child' keys, by simp only [convert, converted, bind, Except.bind, isBoundary]; rfl,
        found.keep carried rfl rfl rfl rfl⟩
    | some columnMap =>
      obtain ⟨keys', keysRan⟩ := remapKeys_succeeds (boundaryFor_knows found
        (referencesScanSchema_annotateScan childRan).1 _ (fun _ => List.subset_append_right _ _) bound.2
        isBoundary)
      exact ⟨.sort child' keys',
        by simp only [convert, converted, bind, Except.bind, isBoundary, keysRan]; rfl,
        found.keep carried rfl rfl rfl rfl⟩
  | limit child limit hypothesis =>
    obtain ⟨annotated', childRan, rfl⟩ := Option.map_eq_some_iff.mp ran
    obtain ⟨child', converted, found⟩ := hypothesis childRan bound isAligned
    exact ⟨.limit child' limit, by rw [convert, converted]; rfl,
      found.keep (List.Subset.refl _) rfl rfl rfl rfl⟩

end KernelLake.ConversionSuccess
