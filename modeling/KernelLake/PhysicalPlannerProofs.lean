import KernelLake.ScanSelection

/-!
When the physical plan returns the rows of the logical one.

A join delivers its inputs' columns side by side, in either order; the combined map finds them if
each input's map covers exactly that input. With the layouts of all operators, a converted plan
returns the rows of an anchored logical plan.
-/

namespace KernelLake.PhysicalPlannerProofs

open KernelLake.Types KernelLake.Expressions KernelLake.Evaluation KernelLake.LogicalPlans
open KernelLake.PlanSemantics KernelLake.ColumnProofs KernelLake.PhysicalPlans
open KernelLake.PhysicalPlanner KernelLake.RemapProofs KernelLake.Library.Relations
open KernelLake.Library.Results
open KernelLake.Pushdown KernelLake.Layouts KernelLake.Optimizer KernelLake.ScanAnnotation
open KernelLake.ScanSelection

/-! ## Joins -/

section Joins

variable {leftPlaced rightPlaced : List Nat} {leftMap rightMap : List (Option Nat)}

theorem columnValue_append_left {left : Row} {place : Nat} (inLeft : place < left.length) (right : Row) :
    columnValue (left ++ right) place = columnValue left place := by
  simp only [columnValue, List.getD_eq_getElem?_getD, List.getElem?_append_left inLeft]

theorem columnValue_append_right (left right : Row) (place : Nat) :
    columnValue (left ++ right) (left.length + place) = columnValue right place := by
  simp only [columnValue, List.getD_eq_getElem?_getD, List.getElem?_append_right (Nat.le_add_right _ _),
    Nat.add_sub_cancel_left]

theorem pick_left {left : Row} (within : ∀ index ∈ leftPlaced, index < left.length) (right : Row) :
    pick leftPlaced (left ++ right) = pick leftPlaced left := by
  exact List.map_congr_left (fun index member => columnValue_append_left (within index member) right)

theorem pick_right (left right : Row) :
    pick (rightPlaced.map (left.length + ·)) (left ++ right) = pick rightPlaced right := by
  simp only [pick, List.map_map]
  exact List.map_congr_left (fun index _ => columnValue_append_right left right index)

theorem pick_nulls {width : Nat} (within : ∀ index ∈ rightPlaced, index < width) :
    pick rightPlaced (List.replicate width .null) = List.replicate rightPlaced.length .null := by
  refine List.eq_replicate_iff.mpr ⟨by simp [pick], fun value member => ?_⟩
  obtain ⟨index, inPlaced, rfl⟩ := List.mem_map.mp member
  simp [List.getD_eq_getElem?_getD, within index inPlaced]

/-- A row over both inputs of a join, with each input's columns where they are delivered. -/
def pickBoth (leftWidth : Nat) (leftPlaced rightPlaced : List Nat) (row : Row) : Row :=
  pick leftPlaced (row.take leftWidth) ++ pick rightPlaced (row.drop leftWidth)

theorem agree_pickBoth (leftLocated : Located leftMap leftPlaced)
    (rightLocated : Located rightMap rightPlaced) (row : Row) :
    Agree (resolveResidual leftMap rightMap leftPlaced.length) row
      (pickBoth leftMap.length leftPlaced rightPlaced row) := by
  intro name index place found
  unfold resolveResidual at found
  split at found
  · rename_i isLeft
    split at found
    · rename_i place' looked
      obtain rfl := Except.ok.inj found
      have put := leftLocated index place' looked
      have inPlaced : place' < (pick leftPlaced (row.take leftMap.length)).length := by
        simpa [pick] using (List.getElem?_eq_some_iff.mp put).1
      rw [pickBoth, columnValue_append_left inPlaced, columnValue_pick put]
      simp only [columnValue, List.getD_eq_getElem?_getD, List.getElem?_take_of_lt isLeft]
    · cases found
  · rename_i isRight
    split at found
    · rename_i place' looked
      obtain rfl := Except.ok.inj found
      have put := rightLocated _ place' looked
      have reached : leftMap.length + (index - leftMap.length) = index := by omega
      have leftLength : leftPlaced.length = (pick leftPlaced (row.take leftMap.length)).length := by
        simp [pick]
      rw [pickBoth, leftLength, columnValue_append_right, columnValue_pick put]
      simp only [columnValue, List.getD_eq_getElem?_getD, List.getElem?_drop, reached]
    · cases found

theorem eval_residual (leftLocated : Located leftMap leftPlaced)
    (rightLocated : Located rightMap rightPlaced) {predicate remapped : Expression}
    (ran : remapJoinResidualPredicate leftMap rightMap leftPlaced.length predicate = .ok remapped)
    {left : Row} (width : left.length = leftMap.length) (right : Row) :
    eval remapped (pick leftPlaced left ++ pick rightPlaced right) = eval predicate (left ++ right) := by
  have same := evalIn_remap (agree_pickBoth leftLocated rightLocated) none
    (agree_pickBoth leftLocated rightLocated (left ++ right)) predicate remapped ran
  rw [pickBoth, ← width, List.take_left, List.drop_left] at same
  exact same

theorem joinMatches_remap (leftLocated : Located leftMap leftPlaced)
    (rightLocated : Located rightMap rightPlaced) {leftKeyIndex rightKeyIndex leftKey rightKey : Nat}
    (leftFound : lookUp leftMap leftKeyIndex = some leftKey)
    (rightFound : lookUp rightMap rightKeyIndex = some rightKey)
    {residualPredicate residual : Option Expression}
    (ran : residualPredicate.mapM (remapJoinResidualPredicate leftMap rightMap leftPlaced.length) =
      .ok residual) {left : Row} (width : left.length = leftMap.length) (right : Row) :
    joinMatches leftKey rightKey residual (pick leftPlaced left) (pick rightPlaced right) =
      joinMatches leftKeyIndex rightKeyIndex residualPredicate left right := by
  have leftValue := columnValue_pick (leftLocated _ _ leftFound) left
  have rightValue := columnValue_pick (rightLocated _ _ rightFound) right
  simp only [columnValue] at leftValue rightValue
  unfold joinMatches
  rw [leftValue, rightValue]
  cases residualPredicate with
  | none =>
    obtain rfl : none = residual := pure_eq_ok.mp ran
    rfl
  | some predicate =>
    cases remapRan : remapJoinResidualPredicate leftMap rightMap leftPlaced.length predicate with
    | error message =>
      simp only [Option.mapM_some, remapRan] at ran
      cases ran
    | ok remapped =>
      simp only [Option.mapM_some, remapRan] at ran
      obtain rfl : some remapped = residual := Except.ok.inj ran
      simp only [eval_residual leftLocated rightLocated remapRan width]

/-- The key comparison of a join with its inputs exchanged. -/
theorem joinMatches_swap (leftKey rightKey : Nat) (left right : Row) :
    joinMatches rightKey leftKey none right left = joinMatches leftKey rightKey none left right := by
  unfold joinMatches
  rw [compareValues_swap (left.getD leftKey .raised)]
  cases compareValues (left.getD leftKey .raised) (right.getD rightKey .raised) with
  | ordered ordering => cases ordering <;> rfl
  | _ => rfl

/-- A join of changed inputs that match as the inputs do, in the order of the inputs. -/
theorem joinRows_map {joinType : JoinType} {on on' : Row → Row → Bool} {leftWidth rightWidth : Nat}
    {left right : List Row} (leftLengths : ∀ row ∈ left, row.length = leftWidth)
    (leftWithin : ∀ index ∈ leftPlaced, index < leftWidth)
    (rightWithin : ∀ index ∈ rightPlaced, index < rightWidth)
    (same : ∀ row ∈ left, ∀ other ∈ right,
      on' (pick leftPlaced row) (pick rightPlaced other) = on row other) :
    joinRows on' joinType rightPlaced.length (left.map (pick leftPlaced)) (right.map (pick rightPlaced)) =
      (joinRows on joinType rightWidth left right).map
        (pick (joinPlaced false joinType leftWidth leftPlaced rightPlaced)) := by
  have append {row : Row} (inLeft : row ∈ left) (other : Row) :
      pick (leftPlaced ++ rightPlaced.map (leftWidth + ·)) (row ++ other) =
        pick leftPlaced row ++ pick rightPlaced other := by
    have length := leftLengths row inLeft
    rw [← length] at leftWithin ⊢
    have split : pick (leftPlaced ++ rightPlaced.map (row.length + ·)) (row ++ other) =
        pick leftPlaced (row ++ other) ++ pick (rightPlaced.map (row.length + ·)) (row ++ other) :=
      List.map_append
    rw [split, pick_left leftWithin, pick_right]
  cases joinType with
  | inner =>
    simp only [joinRows, innerJoin_map same, List.map_map]
    refine List.map_congr_left (fun pair member => ?_)
    exact (append (mem_innerJoin.mp member).1 pair.2).symm
  | leftOuter =>
    simp only [joinRows, outerJoin_map same, List.map_map]
    refine List.map_congr_left (fun pair member => ?_)
    simp only [Function.comp_apply, nullExtended, Prod.map_fst, Prod.map_snd]
    refine Eq.trans ?_ (append (mem_outerJoin_left member) _).symm
    cases pair.2 with
    | none => simp [pick_nulls rightWithin]
    | some other => rfl
  | leftSemi => exact semiJoin_map same
  | leftAnti => exact antiJoin_map same

/-- An inner join of changed inputs, exchanged: the same rows in another order. -/
theorem joinRows_swapped {on on' : Row → Row → Bool} {leftWidth rightWidth : Nat} {left right : List Row}
    (leftLengths : ∀ row ∈ left, row.length = leftWidth)
    (leftWithin : ∀ index ∈ leftPlaced, index < leftWidth)
    (same : ∀ row ∈ left, ∀ other ∈ right,
      on' (pick rightPlaced other) (pick leftPlaced row) = on row other) :
    (joinRows on' .inner leftPlaced.length (right.map (pick rightPlaced))
        (left.map (pick leftPlaced))).Perm
      ((joinRows on .inner rightWidth left right).map
        (pick (joinPlaced true .inner leftWidth leftPlaced rightPlaced))) := by
  have append {row : Row} (inLeft : row ∈ left) (other : Row) :
      pick (rightPlaced.map (leftWidth + ·) ++ leftPlaced) (row ++ other) =
        pick rightPlaced other ++ pick leftPlaced row := by
    have length := leftLengths row inLeft
    rw [← length] at leftWithin ⊢
    have split : pick (rightPlaced.map (row.length + ·) ++ leftPlaced) (row ++ other) =
        pick (rightPlaced.map (row.length + ·)) (row ++ other) ++ pick leftPlaced (row ++ other) :=
      List.map_append
    rw [split, pick_left leftWithin, pick_right]
  have swapped := (innerJoin_swap left right : (innerJoin (fun other row => on row other) right left).Perm _)
  have mapped : innerJoin on' (right.map (pick rightPlaced)) (left.map (pick leftPlaced)) =
      (innerJoin (fun other row => on row other) right left).map
        (Prod.map (pick rightPlaced) (pick leftPlaced)) :=
    innerJoin_map (fun other inRight row inLeft => same row inLeft other inRight)
  simp only [joinRows]
  rw [mapped, List.map_map, List.map_map]
  refine (swapped.map _).trans (List.Perm.of_eq ?_)
  rw [List.map_map]
  refine List.map_congr_left (fun pair member => ?_)
  exact (append (mem_innerJoin.mp member).1 pair.2).symm

theorem delivers_binary {leftDelivered leftReturned rightDelivered rightReturned : List Row → Prop}
    {leftChange rightChange change : Row → Row} {logical physical : List Row → List Row → List Row}
    (leftSame : ∀ result, leftDelivered result ↔
      ∃ original, leftReturned original ∧ result = original.map leftChange)
    (rightSame : ∀ result, rightDelivered result ↔
      ∃ original, rightReturned original ∧ result = original.map rightChange)
    (commutes : ∀ left right, leftReturned left → rightReturned right →
      (physical (left.map leftChange) (right.map rightChange)).Perm ((logical left right).map change))
    (result : List Row) :
    (∃ left right, leftDelivered left ∧ rightDelivered right ∧ result.Perm (physical left right)) ↔
      ∃ original : List Row, (∃ left right, leftReturned left ∧ rightReturned right ∧
        original.Perm (logical left right)) ∧ result = original.map change := by
  constructor
  · rintro ⟨left, right, isLeft, isRight, permuted⟩
    obtain ⟨leftSource, leftReturned, rfl⟩ := (leftSame left).mp isLeft
    obtain ⟨rightSource, rightReturned, rfl⟩ := (rightSame right).mp isRight
    have image := permuted.trans (commutes leftSource rightSource leftReturned rightReturned)
    obtain ⟨original, isImage, isPermuted⟩ := (congrFun₂ (List.eq_map_comp_perm change) _ _).mpr image
    exact ⟨original, ⟨leftSource, rightSource, leftReturned, rightReturned, isPermuted⟩, isImage⟩
  · rintro ⟨original, ⟨left, right, isLeft, isRight, permuted⟩, rfl⟩
    refine ⟨_, _, (leftSame _).mpr ⟨left, isLeft, rfl⟩, (rightSame _).mpr ⟨right, isRight, rfl⟩, ?_⟩
    exact (permuted.map change).trans (commutes left right isLeft isRight).symm

theorem lookUp_append (first second : List (Option Nat)) (index : Nat) :
    lookUp (first ++ second) index =
      if index < first.length then lookUp first index else lookUp second (index - first.length) := by
  unfold lookUp
  split
  · rename_i inFirst
    rw [List.getElem?_append_left inFirst]
  · rename_i beyond
    rw [List.getElem?_append_right (Nat.le_of_not_lt beyond)]

theorem lookUp_map (offset : Nat) (columnMap : List (Option Nat)) (index : Nat) :
    lookUp (columnMap.map (Option.map (offset + ·))) index = (lookUp columnMap index).map (offset + ·) := by
  unfold lookUp
  rw [List.getElem?_map]
  cases columnMap[index]? <;> rfl

/-- The combined map of a join agrees with the combined layout. -/
theorem located_combined {swap : Bool} {joinType : JoinType} (onlyInner : swap = true → joinType = .inner)
    (leftLocated : Located leftMap leftPlaced) (rightLocated : Located rightMap rightPlaced) :
    Located (combinedColumnMap swap joinType leftMap rightMap leftPlaced.length rightPlaced.length)
      (joinPlaced swap joinType leftMap.length leftPlaced rightPlaced) := by
  intro index place found
  unfold combinedColumnMap at found
  unfold joinPlaced
  split
  · rename_i semi
    rw [if_pos semi, lookUp_map] at found
    obtain ⟨place', looked, rfl⟩ := Option.map_eq_some_iff.mp found
    cases swap with
    | true =>
      rw [onlyInner rfl] at semi
      cases semi
    | false => simpa using leftLocated index place' looked
  · rename_i both
    rw [if_neg both, lookUp_append, List.length_map] at found
    split at found
    · rename_i inLeft
      rw [lookUp_map] at found
      obtain ⟨place', looked, rfl⟩ := Option.map_eq_some_iff.mp found
      have put := leftLocated index place' looked
      cases swap with
      | true =>
        simp only [if_true]
        rw [List.getElem?_append_right (by simp)]
        simpa using put
      | false =>
        simp only [Bool.false_eq_true, if_false, Nat.zero_add]
        rw [List.getElem?_append_left (List.getElem?_eq_some_iff.mp put).1]
        exact put
    · rename_i beyond
      rw [lookUp_map] at found
      obtain ⟨place', looked, rfl⟩ := Option.map_eq_some_iff.mp found
      have put := rightLocated _ place' looked
      have reached : leftMap.length + (index - leftMap.length) = index := by omega
      have moved : (rightPlaced.map (leftMap.length + ·))[place']? = some index := by
        simp [put, reached]
      cases swap with
      | true =>
        simp only [if_true, Nat.zero_add]
        rw [List.getElem?_append_left (List.getElem?_eq_some_iff.mp moved).1]
        exact moved
      | false =>
        simp only [Bool.false_eq_true, if_false]
        rw [List.getElem?_append_right (Nat.le_add_right _ _), Nat.add_sub_cancel_left]
        exact moved

end Joins

section JoinLayout

variable {files : ResolvedFiles} {stored : StoredTables} {left right : LogicalPlan}
  {left' right' physical : PhysicalPlan} {leftPlaced rightPlaced : List Nat}
  {leftKeyIndex rightKeyIndex : Nat} {joinType : JoinType} {residualPredicate : Option Expression}

theorem swapForBuildSide_inner (swap : swapForBuildSide joinType left' right' = true) :
    joinType = .inner := by
  simp only [swapForBuildSide, Bool.and_eq_true, decide_eq_true_eq] at swap
  exact swap.1

theorem columnName_joinSchema_left {leftSchema rightSchema : Schema} {index : Nat}
    (inLeft : index < leftSchema.length) :
    columnName (joinSchema leftSchema rightSchema joinType) index = columnName leftSchema index := by
  cases joinType <;> simp [joinSchema, columnName, List.getElem?_append_left inLeft]

theorem columnName_joinSchema_right {leftSchema rightSchema : Schema} (place : Nat)
    (noSemi : joinType ≠ .leftSemi) (noAnti : joinType ≠ .leftAnti) :
    columnName (joinSchema leftSchema rightSchema joinType) (leftSchema.length + place) =
      columnName rightSchema place := by
  cases joinType with
  | leftSemi => exact absurd rfl noSemi
  | leftAnti => exact absurd rfl noAnti
  | leftOuter =>
    simp only [joinSchema, columnName, List.getElem?_append_right (Nat.le_add_right _ _),
      Nat.add_sub_cancel_left, List.getElem?_map]
    cases rightSchema[place]? <;> rfl
  | inner =>
    simp only [joinSchema, columnName, List.getElem?_append_right (Nat.le_add_right _ _),
      Nat.add_sub_cancel_left]

theorem names_joinPlaced {swap : Bool} (onlyInner : swap = true → joinType = .inner)
    (leftLayout : Layout files stored left left' leftPlaced)
    (rightLayout : Layout files stored right right' rightPlaced) :
    (if swap then joinSchema right'.outputSchema left'.outputSchema joinType
      else joinSchema left'.outputSchema right'.outputSchema joinType).map Field.name =
      (joinPlaced swap joinType left.width leftPlaced rightPlaced).map
        (columnName (joinSchema left.outputSchema right.outputSchema joinType)) := by
  have leftNames : leftPlaced.map (columnName (joinSchema left.outputSchema right.outputSchema joinType)) =
      left'.outputSchema.map Field.name := by
    rw [leftLayout.named]
    exact List.map_congr_left (fun index member => columnName_joinSchema_left (leftLayout.within index member))
  have rightNames (noSemi : joinType ≠ .leftSemi) (noAnti : joinType ≠ .leftAnti) :
      (rightPlaced.map (left.width + ·)).map
          (columnName (joinSchema left.outputSchema right.outputSchema joinType)) =
        right'.outputSchema.map Field.name := by
    rw [rightLayout.named, List.map_map]
    exact List.map_congr_left (fun place _ => columnName_joinSchema_right place noSemi noAnti)
  have widenedNames : (right'.outputSchema.map widened).map Field.name =
      right'.outputSchema.map Field.name := by
    simp [widened]
  generalize columnName (joinSchema left.outputSchema right.outputSchema joinType) = nameOf
    at leftNames rightNames ⊢
  cases swap with
  | true =>
    obtain rfl := onlyInner rfl
    simp [joinPlaced, joinSchema, -List.map_map, leftNames, rightNames]
  | false =>
    cases joinType <;> simp [joinPlaced, joinSchema, -List.map_map, leftNames, rightNames, widenedNames]

/-- Whether inputs are exchanged is the same before and after conversion. -/
theorem swapForBuildSide_eq (leftLayout : Layout files stored left left' leftPlaced)
    (rightLayout : Layout files stored right right' rightPlaced) :
    swapForBuildSide joinType left' right' = exchanges files left right joinType := by
  rw [exchanges, ← leftLayout.expected, ← rightLayout.expected]
  rfl

theorem within_joinPlaced {swap : Bool} (leftWithin : ∀ index ∈ leftPlaced, index < left.width)
    (rightWithin : ∀ index ∈ rightPlaced, index < right.width) :
    ∀ index ∈ joinPlaced swap joinType left.width leftPlaced rightPlaced,
      index < (LogicalPlan.join left right leftKeyIndex rightKeyIndex joinType residualPredicate).width := by
  unfold LogicalPlan.width at leftWithin rightWithin ⊢
  intro index member
  have inEither : index ∈ leftPlaced ∨
      (joinType ≠ .leftSemi ∧ joinType ≠ .leftAnti) ∧
        ∃ place ∈ rightPlaced, left.outputSchema.length + place = index := by
    unfold joinPlaced at member
    split at member
    · exact .inl member
    · rename_i both
      simp only [Bool.or_eq_true, decide_eq_true_eq, not_or] at both
      split at member
      · rcases List.mem_append.mp member with inRight | inLeft
        · exact .inr ⟨both, List.mem_map.mp inRight⟩
        · exact .inl inLeft
      · rcases List.mem_append.mp member with inLeft | inRight
        · exact .inl inLeft
        · exact .inr ⟨both, List.mem_map.mp inRight⟩
  simp only [LogicalPlan.outputSchema, joinSchema_length]
  rcases inEither with inLeft | ⟨⟨noSemi, noAnti⟩, place, inRight, rfl⟩
  · have := leftWithin index inLeft
    cases joinType <;> simp only <;> omega
  · have := rightWithin place inRight
    cases joinType with
    | leftSemi => exact absurd rfl noSemi
    | leftAnti => exact absurd rfl noAnti
    | _ => simp only; omega

/-- What a converted join is, with its inputs exchanged or not. -/
theorem convertJoin_cases
    (ran : convertJoin left' right' leftKeyIndex rightKeyIndex joinType residualPredicate = .ok physical) :
    ∃ leftKey rightKey residual, lookUp (findScanBoundary left') leftKeyIndex = some leftKey ∧
      lookUp (findScanBoundary right') rightKeyIndex = some rightKey ∧
      residualPredicate.mapM (remapJoinResidualPredicate (findScanBoundary left') (findScanBoundary right')
        left'.width) = .ok residual ∧
      ((swapForBuildSide joinType left' right' = true ∧ joinType = .inner ∧
          physical = .hashJoin right' left' rightKey leftKey
            (combinedColumnMap true joinType (findScanBoundary left') (findScanBoundary right') left'.width
              right'.width) joinType residual) ∨
        (swapForBuildSide joinType left' right' = false ∧
          physical = .hashJoin left' right' leftKey rightKey
            (combinedColumnMap false joinType (findScanBoundary left') (findScanBoundary right') left'.width
              right'.width) joinType residual)) := by
  unfold convertJoin at ran
  simp only at ran
  split at ran
  · rename_i leftKey rightKey leftFound rightFound
    obtain ⟨residual, residualRan, built⟩ := bind_eq_ok.mp ran
    refine ⟨leftKey, rightKey, residual, leftFound, rightFound, residualRan, ?_⟩
    cases swap : swapForBuildSide joinType left' right' with
    | true =>
      rw [swap] at built
      exact .inl ⟨rfl, swapForBuildSide_inner swap, (pure_eq_ok.mp built).symm⟩
    | false =>
      rw [swap] at built
      exact .inr ⟨rfl, (pure_eq_ok.mp built).symm⟩
  · cases ran

/-- The parts of a join's layout that do not depend on its rows. -/
theorem layout_of_delivers (swap : Bool) (onlyInner : swap = true → joinType = .inner)
    (leftLayout : Layout files stored left left' leftPlaced)
    (rightLayout : Layout files stored right right' rightPlaced)
    (leftSearchable : searchable files left = true) (leftClosed : closed files left = true)
    (rightSearchable : searchable files right = true)
    (schema : physical.outputSchema = if swap then joinSchema right'.outputSchema left'.outputSchema joinType
      else joinSchema left'.outputSchema right'.outputSchema joinType)
    (expected : estimateRowCount physical = expectedRows files
      (.join left right leftKeyIndex rightKeyIndex joinType residualPredicate))
    (boundary : findScanBoundary physical = combinedColumnMap swap joinType (findScanBoundary left')
      (findScanBoundary right') left'.width right'.width)
    (delivers : ∀ result, Delivers stored physical result ↔
      ∃ original,
        Returns (scanned files stored) (.join left right leftKeyIndex rightKeyIndex joinType residualPredicate)
          original ∧
        result = original.map (pick (joinPlaced swap joinType left.width leftPlaced rightPlaced))) :
    Layout files stored (.join left right leftKeyIndex rightKeyIndex joinType residualPredicate) physical
      (joinPlaced swap joinType left.width leftPlaced rightPlaced) where
  named := by
    rw [schema]
    exact names_joinPlaced onlyInner leftLayout rightLayout
  expected := expected
  within := within_joinPlaced leftLayout.within rightLayout.within
  delivers := delivers
  own references := by cases references
  located _ := by
    rw [boundary, ← leftLayout.covered leftClosed, leftLayout.width, rightLayout.width]
    exact located_combined onlyInner (leftLayout.located leftSearchable) (rightLayout.located rightSearchable)
  covered close := by
    have leftCovered := leftLayout.covered leftClosed
    simp only [closed, Bool.or_eq_true, decide_eq_true_eq] at close
    rw [boundary, LogicalPlan.width, LogicalPlan.outputSchema, joinSchema_length]
    unfold combinedColumnMap
    cases joinType with
    | leftSemi => simpa [LogicalPlan.width] using leftCovered
    | leftAnti => simpa [LogicalPlan.width] using leftCovered
    | _ =>
      have rightCovered := rightLayout.covered (by simpa using close)
      simp [leftCovered, rightCovered, LogicalPlan.width]

/-- An exchanged inner join finds the pairs of the join it stands for. -/
theorem delivers_exchanged (leftLayout : Layout files stored left left' leftPlaced)
    (rightLayout : Layout files stored right right' rightPlaced) {leftKey rightKey : Nat}
    {columnMap : List (Option Nat)}
    (same : ∀ leftRows, Returns (scanned files stored) left leftRows → ∀ row ∈ leftRows, ∀ other,
      joinMatches leftKey rightKey none (pick leftPlaced row) (pick rightPlaced other) =
        joinMatches leftKeyIndex rightKeyIndex none row other) (result : List Row) :
    Delivers stored (.hashJoin right' left' rightKey leftKey columnMap .inner none) result ↔
      ∃ original, Returns (scanned files stored) (.join left right leftKeyIndex rightKeyIndex .inner none) original ∧
        result = original.map (pick (joinPlaced true .inner left.width leftPlaced rightPlaced)) := by
  let exchanged (leftRows rightRows : List Row) : List Row :=
    joinRows (joinMatches rightKey leftKey none) .inner left'.width rightRows leftRows
  have commutes : ∀ leftRows rightRows, Returns (scanned files stored) left leftRows →
      Returns (scanned files stored) right rightRows →
      (exchanged (leftRows.map (pick leftPlaced)) (rightRows.map (pick rightPlaced))).Perm
        ((joinRows (joinMatches leftKeyIndex rightKeyIndex none) .inner right.width leftRows rightRows).map
          (pick (joinPlaced true .inner left.width leftPlaced rightPlaced))) := by
    intro leftRows rightRows leftReturned _
    simp only [exchanged]
    rw [leftLayout.width]
    refine joinRows_swapped (length_of_returns leftReturned) leftLayout.within (fun row inLeft other _ => ?_)
    rw [joinMatches_swap]
    exact same leftRows leftReturned row inLeft other
  refine Iff.trans ?_ (delivers_binary leftLayout.delivers rightLayout.delivers commutes result)
  constructor
  · rintro ⟨rightRows, leftRows, rightDelivered, leftDelivered, permuted⟩
    exact ⟨leftRows, rightRows, leftDelivered, rightDelivered, permuted⟩
  · rintro ⟨leftRows, rightRows, leftDelivered, rightDelivered, permuted⟩
    exact ⟨rightRows, leftRows, rightDelivered, leftDelivered, permuted⟩

theorem layout_join (leftLayout : Layout files stored left left' leftPlaced)
    (rightLayout : Layout files stored right right' rightPlaced)
    (leftSearchable : searchable files left = true) (leftClosed : closed files left = true)
    (rightSearchable : searchable files right = true)
    (plainInner : joinType = .inner → residualPredicate = none)
    (ran : convertJoin left' right' leftKeyIndex rightKeyIndex joinType residualPredicate = .ok physical) :
    Layout files stored (.join left right leftKeyIndex rightKeyIndex joinType residualPredicate) physical
      (joinPlaced (exchanges files left right joinType) joinType left.width leftPlaced rightPlaced) := by
  obtain ⟨leftKey, rightKey, residual, leftFound, rightFound, residualRan, built⟩ := convertJoin_cases ran
  rw [leftLayout.width] at residualRan
  have same (leftRows : List Row) (leftReturned : Returns (scanned files stored) left leftRows) (row : Row)
      (inLeft : row ∈ leftRows) (other : Row) :
      joinMatches leftKey rightKey residual (pick leftPlaced row) (pick rightPlaced other) =
        joinMatches leftKeyIndex rightKeyIndex residualPredicate row other := by
    refine joinMatches_remap (leftLayout.located leftSearchable) (rightLayout.located rightSearchable)
      leftFound rightFound residualRan ?_ other
    rw [leftLayout.covered leftClosed]
    exact length_of_returns leftReturned row inLeft
  rw [← swapForBuildSide_eq leftLayout rightLayout]
  rcases built with ⟨isSwapped, rfl, rfl⟩ | ⟨inOrder, rfl⟩
  · obtain rfl := plainInner rfl
    obtain rfl : none = residual := pure_eq_ok.mp residualRan
    rw [isSwapped]
    refine layout_of_delivers true (fun _ => rfl) leftLayout rightLayout leftSearchable leftClosed
      rightSearchable rfl ?_ rfl (delivers_exchanged leftLayout rightLayout same)
    simp only [estimateRowCount, expectedRows, leftLayout.expected, rightLayout.expected, bind, Option.bind,
      pure]
    cases expectedRows files left <;> cases expectedRows files right <;> simp [max_comm]
  · rw [inOrder]
    refine layout_of_delivers false (fun swapped => by cases swapped) leftLayout rightLayout leftSearchable
      leftClosed rightSearchable rfl ?_ rfl (fun result => ?_)
    · simp only [estimateRowCount, expectedRows, leftLayout.expected, rightLayout.expected]
    · refine delivers_binary leftLayout.delivers rightLayout.delivers
        (fun leftRows rightRows leftReturned _ => ?_) result
      rw [rightLayout.width]
      exact List.Perm.of_eq (joinRows_map (length_of_returns leftReturned) leftLayout.within
        rightLayout.within (fun row inLeft other _ => same leftRows leftReturned row inLeft other))

end JoinLayout

/-! ## Plans -/

theorem layout_convert {files : ResolvedFiles} (stored : StoredTables) {plan : LogicalPlan}
    {physical : PhysicalPlan} (isAnchored : anchored files plan = true)
    (ran : convert files plan = .ok physical) : Layout files stored plan physical (places files plan) := by
  induction plan generalizing physical with
  | scan source =>
    obtain rfl := pure_eq_ok.mp ran
    exact layout_scan source
  | join left right leftKeyIndex rightKeyIndex joinType residualPredicate leftLayout rightLayout =>
    simp only [anchored, Bool.and_eq_true] at isAnchored
    obtain ⟨⟨⟨⟨⟨leftAnchored, rightAnchored⟩, leftSearchable⟩, leftClosed⟩, rightSearchable⟩, plain⟩ :=
      isAnchored
    obtain ⟨left', leftRan, ran⟩ := bind_eq_ok.mp ran
    obtain ⟨right', rightRan, ran⟩ := bind_eq_ok.mp ran
    refine layout_join (leftLayout leftAnchored leftRan) (rightLayout rightAnchored rightRan) leftSearchable
      leftClosed rightSearchable (fun isInner => ?_) ran
    subst isInner
    simpa using plain
  | filter child predicate childLayout =>
    simp only [anchored, Bool.and_eq_true] at isAnchored
    obtain ⟨child', childRan, _⟩ := bind_eq_ok.mp ran
    exact layout_filter (childLayout isAnchored.1 childRan) isAnchored.2 childRan ran
  | projection child items childLayout =>
    simp only [anchored, Bool.and_eq_true] at isAnchored
    obtain ⟨child', childRan, ran⟩ := bind_eq_ok.mp ran
    obtain ⟨items', itemsRan, ran⟩ := bind_eq_ok.mp ran
    have layout := childLayout isAnchored.1 childRan
    split at ran
    · rename_i identity
      obtain rfl := pure_eq_ok.mp ran
      exact layout_elided layout isAnchored.2 itemsRan identity
    · obtain rfl := pure_eq_ok.mp ran
      exact layout_projection layout isAnchored.2 itemsRan
  | aggregate child groupBy aggregates childLayout =>
    simp only [anchored, Bool.and_eq_true] at isAnchored
    obtain ⟨child', childRan, _⟩ := bind_eq_ok.mp ran
    exact layout_aggregate (childLayout isAnchored.1 childRan) isAnchored.2 childRan ran
  | sort child keys childLayout =>
    simp only [anchored, Bool.and_eq_true] at isAnchored
    obtain ⟨child', childRan, _⟩ := bind_eq_ok.mp ran
    exact layout_sort (childLayout isAnchored.1 childRan) isAnchored.2 childRan ran
  | limit child limit childLayout =>
    obtain ⟨child', childRan, _⟩ := bind_eq_ok.mp ran
    exact layout_limit (childLayout isAnchored childRan) childRan ran

/-- The physical plan of an anchored logical plan delivers the needed columns of exactly the results of the
logical one over the rows that its scans read. A plan that numbers its own columns, as one that ends in a
projection does, is delivered as it is. -/
theorem delivers_scanned {files : ResolvedFiles} {stored : StoredTables} {plan : LogicalPlan}
    {physical : PhysicalPlan} (isAnchored : anchored files plan = true)
    (ran : convert files plan = .ok physical) :
    (∀ result, Delivers stored physical result ↔
      ∃ original, Returns (scanned files stored) plan original ∧
        result = original.map (pick (places files plan))) ∧
    (referencesScanSchema plan = false →
      ∀ result, Delivers stored physical result ↔ Returns (scanned files stored) plan result) := by
  have layout := layout_convert stored isAnchored ran
  refine ⟨layout.delivers, fun ownNumbering result => ?_⟩
  have unchanged {original : List Row} (returned : Returns (scanned files stored) plan original) :
      original.map (pick (places files plan)) = original := by
    rw [layout.own ownNumbering]
    exact map_eq_self (fun row member => pick_range (length_of_returns returned row member))
  rw [layout.delivers]
  constructor
  · rintro ⟨original, returned, rfl⟩
    rwa [unchanged returned]
  · intro returned
    exact ⟨result, returned, (unchanged returned).symm⟩

/-- The physical plan of an optimized plan delivers exactly the results of the logical one over whole tables, if the
plan is anchored and what its scans leave out is left out rightly. -/
theorem convert_delivers {files : ResolvedFiles} {stored : StoredTables} {tables : Tables}
    {plan annotated : LogicalPlan} {physical : PhysicalPlan} (optimized : optimize plan = some annotated)
    (ran : convert files annotated = .ok physical) (isAnchored : anchored files annotated = true)
    (covered : Covered tables (rewritePlan plan) [] [])
    (selected : SelectsRightly tables (scanned files stored) annotated) :
    (∀ result, Delivers stored physical result ↔
      ∃ original, Returns tables annotated original ∧
        result = original.map (pick (places files annotated))) ∧
    (referencesScanSchema annotated = false →
      ∀ result, Delivers stored physical result ↔ Returns tables annotated result) := by
  have whole := returns_selected optimized covered selected
  have delivers := @delivers_scanned files stored annotated physical isAnchored ran
  simp only [whole] at delivers
  exact delivers

def tripleSchema : Schema := [⟨"a", int64Type⟩, ⟨"b", int64Type⟩, ⟨"c", int64Type⟩]

def tripleScan (path : String) : LogicalScan := .make [path] tripleSchema

def tripleTables : Tables :=
  Tables.ofContents
    [⟨["t.parquet"], tripleSchema, [[.int 1, .int 20, .int 30]], by decide⟩,
      ⟨["u.parquet"], tripleSchema, [[.int 1, .int 40, .int 50], [.int 2, .int 60, .int 70]], by decide⟩,
      ⟨["v.parquet"], tripleSchema, [[.int 1, .int 40, .int 50], [.int 2, .int 60, .int 70],
        [.int 1, .int 80, .int 6]], by decide⟩]

/-- The file of `v` has two row groups; the statistics of the second one say that its `c` is 6. -/
def tripleFiles : ResolvedFiles := fun source =>
  match source.sourcePaths with
  | ["t.parquet"] => [⟨⟨"t.parquet", [⟨0, 1, []⟩], rfl⟩, 1⟩]
  | ["v.parquet"] => [⟨⟨"v.parquet", [⟨0, 2, []⟩, ⟨1, 1, [("c", ⟨true, .int64 6, .int64 6⟩)]⟩], rfl⟩, 3⟩]
  | _ => []

/-- Two rows are in the first row group of a file, the others in the second. -/
def tripleStored : StoredTables where
  rowGroup paths schema _ index :=
    if index = 0 then (tripleTables.contents paths schema).take 2 else (tripleTables.contents paths schema).drop 2
  width paths schema _ index row member := by
    split at member
    · exact conforms_length (tripleTables.conforming paths schema row (List.mem_of_mem_take member))
    · exact conforms_length (tripleTables.conforming paths schema row (List.mem_of_mem_drop member))

/-- `SELECT t.c, v.b FROM t JOIN v ON t.a = v.a WHERE v.c > 10`; the larger table becomes the left input, and its
second row group is left out. -/
def exchangedPlan : LogicalPlan :=
  .projection
    (.filter
      (.join (.scan (tripleScan "t.parquet")) (.scan (tripleScan "v.parquet")) 0 0 .inner none)
      (.binary .greater (.column "c" 5 int64Type) (makeInt64 10) booleanType))
    [⟨.column "c" 2 int64Type, "c"⟩, ⟨.column "b" 4 int64Type, "b"⟩]

/-- `SELECT c FROM (SELECT b, c FROM t) AS d WHERE c > 1` -/
def narrowedPlan : LogicalPlan :=
  .projection
    (.filter
      (.projection (.scan (tripleScan "t.parquet"))
        [⟨.column "b" 1 int64Type, "b"⟩, ⟨.column "c" 2 int64Type, "c"⟩])
      (.binary .greater (.column "c" 1 int64Type) (makeInt64 1) booleanType))
    [⟨.column "c" 1 int64Type, "c"⟩]

/-- A scan that gets its whole table leaves nothing out. -/
theorem leavesOutFailing_of_eq {tables : Tables} {source : LogicalScan} {read : List Row}
    (whole : read = tables.contents source.sourcePaths source.schema) : LeavesOutFailing tables source read :=
  whole ▸ thinned_refl _ _

theorem convert_delivers_exchanged :
    ∃ annotated physical, optimize exchangedPlan = some annotated ∧
      convert tripleFiles annotated = .ok physical ∧
        Delivers tripleStored physical [[.int 30, .int 40]] := by
  have delivered : ∀ annotated physical, optimize exchangedPlan = some annotated →
      convert tripleFiles annotated = .ok physical →
        Delivers tripleStored physical [[.int 30, .int 40]] := by
    intro annotated physical optimized ran
    obtain rfl := Option.some.inj optimized
    have pushed : rewritePlan exchangedPlan = .projection
        (.join (.scan (tripleScan "t.parquet")) (.filter (.scan (tripleScan "v.parquet"))
          (.binary .greater (.column "c" 2 int64Type) (makeInt64 10) booleanType)) 0 0 .inner none)
        [⟨.column "c" 2 int64Type, "c"⟩, ⟨.column "b" 4 int64Type, "b"⟩] := by decide +kernel
    refine ((@convert_delivers tripleFiles tripleStored tripleTables _ _ _ optimized ran (by decide +kernel)
      ?_ ?_).2 rfl _).mpr ?_
    · rw [pushed]
      refine ⟨fun row _ _ predicate member => (List.not_mem_nil member).elim, ?_⟩
      change ∀ row ∈ tripleTables.contents ["v.parquet"] tripleSchema, _ → _
      decide +kernel
    · refine ⟨leavesOutFailing_of_eq (by decide +kernel), ?_⟩
      -- The third row of `v` fails `c > 10`.
      exact .keep _ (.keep _ (.drop ⟨_, List.mem_singleton_self _, by decide +kernel⟩ .done))
    refine ⟨[[.int 1, .int 20, .int 30, .int 1, .int 40, .int 50]], ⟨_, _, rfl, ⟨_, rfl, rfl⟩, ?_⟩, ?_⟩
    · decide +kernel
    · decide +kernel
  exact ⟨_, _, rfl, rfl, delivered _ _ rfl rfl⟩

/-- The subquery is left out because it copies the two columns that are read, and `c`, the second of
them, is then taken for the second column of the table. Nothing is pruned. -/
theorem convert_misreads :
    ¬ ∀ (files : ResolvedFiles) (stored : StoredTables) (tables : Tables) (plan annotated : LogicalPlan)
        (physical : PhysicalPlan),
      optimize plan = some annotated → convert files annotated = .ok physical →
        Covered tables (rewritePlan plan) [] [] →
        EveryScan (fun source => (scanned files stored).rows source =
          tables.contents source.sourcePaths source.schema) annotated →
        ∀ result, Delivers stored physical result ↔ Returns tables annotated result := by
  intro preserved
  have unchanged : rewritePlan narrowedPlan = narrowedPlan := by decide +kernel
  have covered : Covered tripleTables (rewritePlan narrowedPlan) [] [] := by
    rw [unchanged]
    change ∀ row ∈ tripleTables.contents ["t.parquet"] tripleSchema, _ → _
    decide +kernel
  have whole : ∀ annotated, optimize narrowedPlan = some annotated →
      EveryScan (fun source => (scanned tripleFiles tripleStored).rows source =
        tripleTables.contents source.sourcePaths source.schema) annotated := by
    intro annotated optimized
    obtain rfl := Option.some.inj optimized
    change (scanned tripleFiles tripleStored).rows _ = _
    decide +kernel
  have same := preserved tripleFiles tripleStored tripleTables narrowedPlan _ _ rfl rfl covered (whole _ rfl)
    [[.int 20]]
  have wrong := same.mp ⟨[[.int 20, .int 30]], ⟨[[.int 20, .int 30]], by change _ = _; decide +kernel,
    by decide +kernel⟩, by decide +kernel⟩
  obtain ⟨_, ⟨_, ⟨_, rfl, rfl⟩, rfl⟩, same⟩ := wrong
  revert same
  decide +kernel

end KernelLake.PhysicalPlannerProofs
