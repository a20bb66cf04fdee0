import KernelLake.DerivedTables

/-!
The value of a correlated scalar subquery for a row of the sources around it.

It is computed over those rows of the subquery that pass its own conditions and whose keys agree with the row. A
comparison with a column that holds the value is the comparison with the subquery, and is not `TRUE` if the value
is `NULL`.
-/

namespace KernelLake.CorrelatedValues

open KernelLake.Types KernelLake.Expressions KernelLake.Evaluation KernelLake.LogicalPlans KernelLake.SqlAst
open KernelLake.Binder KernelLake.QueryBinding KernelLake.QueryBindingProofs KernelLake.JoinBinding
open KernelLake.LogicalPlanner KernelLake.PlanSemantics KernelLake.PlannedRows KernelLake.JoinConditions
open KernelLake.ColumnProofs KernelLake.BindingProofs KernelLake.Optimizer KernelLake.RequiredColumns
open KernelLake.PlannedColumns KernelLake.SubqueryResolutionProofs
open KernelLake.AggregatePlanning KernelLake.UnqualifiedNames KernelLake.ExistsRewriting
open KernelLake.ExistsRewritingProofs KernelLake.ScalarDecorrelation KernelLake.CorrelationKeys
open KernelLake.DerivedTables KernelLake.Library.Relations KernelLake.Library.Results

/-! ## Recognised subqueries -/

theorem asColumnRef_eq_some {expression : SqlExpr} {reference : Reference}
    (found : asColumnRef expression = some reference) : expression = columnRef reference := by
  cases expression with
  | columnRef name table =>
    obtain rfl := Option.some.inj found
    rfl
  | _ => cases found

theorem asSubquery_eq_some {expression : SqlExpr} {sub : AstSelectStatement}
    (found : asSubquery expression = some sub) : expression = .subquery sub := by
  cases expression with
  | subquery statement =>
    obtain rfl := Option.some.inj found
    rfl
  | _ => cases found

/-- A comparison of an expression with a subquery, on the side where the subquery stands. -/
theorem matchScalarSubqueryComparison_eq_some {conjunct : SqlExpr} {found : ScalarSubqueryComparison}
    (ran : matchScalarSubqueryComparison conjunct = some found) :
    isComparison found.op = true ∧ conjunct =
      if found.subqueryOnRight then .binary found.op found.outerExpr (.subquery found.inner)
      else .binary found.op (.subquery found.inner) found.outerExpr := by
  unfold matchScalarSubqueryComparison at ran
  split at ran
  · split at ran
    · rename_i comparison
      split at ran
      · rename_i isSubquery
        obtain rfl := Option.some.inj ran
        rw [asSubquery_eq_some isSubquery]
        exact ⟨comparison, rfl⟩
      · rename_i isSubquery _
        obtain rfl := Option.some.inj ran
        rw [asSubquery_eq_some isSubquery]
        exact ⟨comparison, rfl⟩
      · cases ran
    · cases ran
  · cases ran

section Recognised

variable {outerScope : List String}

/-- A correlation is an equality of two columns, of which the outer one has the alias of an outer source. -/
theorem correlationKey_eq_some {conjunct : SqlExpr} {key : Reference × Reference}
    (ran : correlationKey outerScope conjunct = some key) :
    (conjunct = .binary .equal (columnRef key.1) (columnRef key.2) ∨
      conjunct = .binary .equal (columnRef key.2) (columnRef key.1)) ∧
      ∃ table ∈ outerScope, key.1.table = some table := by
  have named {reference : Reference} (isOuter : isOuterAlias reference.table outerScope = true) :
      ∃ table ∈ outerScope, reference.table = some table := by
    unfold isOuterAlias at isOuter
    cases isTable : reference.table with
    | none =>
      rw [isTable] at isOuter
      cases isOuter
    | some table =>
      rw [isTable] at isOuter
      exact ⟨table, List.contains_iff_mem.mp isOuter, rfl⟩
  unfold correlationKey at ran
  split at ran
  · rename_i left right
    simp only [Option.bind_eq_bind, Option.bind_eq_some_iff] at ran
    obtain ⟨leftReference, isLeft, rightReference, isRight, ran⟩ := ran
    rw [asColumnRef_eq_some isLeft, asColumnRef_eq_some isRight]
    split at ran
    · rename_i leftOuter
      obtain rfl := Option.some.inj ran
      exact ⟨.inl rfl, named (Bool.and_eq_true_iff.mp leftOuter).1⟩
    · split at ran
      · rename_i rightOuter
        obtain rfl := Option.some.inj ran
        exact ⟨.inr rfl, named (Bool.and_eq_true_iff.mp rightOuter).1⟩
      · cases ran
  · cases ran

/-- What a subquery becomes, and what it has to be like. -/
theorem tryDecorrelate_eq_some {inner : AstSelectStatement} {syntheticId : Nat} {decorrelated : DecorrelatedSubquery}
    (ran : tryDecorrelate inner outerScope syntheticId = some decorrelated) :
    ∃ item first others, inner.selectList = [item] ∧ inner.fromSubquery = none ∧
      (inner.join = none → inner.source.tableAlias.isSome = true) ∧
      (whereConjuncts inner).filterMap (correlationKey outerScope) = first :: others ∧
      decorrelated = {
        derivedSelect := derivedSelect inner (first :: others)
          ((whereConjuncts inner).filter (fun conjunct => (correlationKey outerScope conjunct).isNone)) item.expr
        derivedAlias := subqueryAlias syntheticId
        joinCondition := keyCondition (subqueryAlias syntheticId) first 0
        extraWhereConjuncts := (others.zipIdx 1).map (fun (key, number) =>
          keyCondition (subqueryAlias syntheticId) key number)
        valueColumnName := valueColumn } := by
  unfold tryDecorrelate at ran
  split at ran
  · rename_i item isItem
    simp only [Option.bind_eq_bind, Option.bind_eq_some_iff] at ran
    obtain ⟨condition, isCondition, ran⟩ := ran
    have conjuncts : whereConjuncts inner = collectAndConjuncts condition := by
      rw [whereConjuncts, isCondition, Option.toList_some, List.flatMap_singleton]
    split at ran
    · cases ran
    · rename_i notDerived
      split at ran
      · cases ran
      · split at ran
        · cases ran
        · rename_i aliased
          split at ran
          · cases ran
          · rename_i first others isKeys
            obtain rfl := Option.some.inj ran
            rw [conjuncts]
            refine ⟨item, first, others, isItem, by simpa using notDerived, fun noJoin => ?_, isKeys, rfl⟩
            simpa [noJoin, Option.isSome_iff_ne_none] using aliased
  · cases ran

theorem decorrelate_eq_some {syntheticId : Nat} {conjunct : SqlExpr} {found : ScalarSubqueryComparison}
    {decorrelated : DecorrelatedSubquery} :
    decorrelate outerScope syntheticId conjunct = some (found, decorrelated) ↔
      matchScalarSubqueryComparison conjunct = some found ∧
        tryDecorrelate found.inner outerScope syntheticId = some decorrelated := by
  simp only [decorrelate, Option.bind_eq_bind, Option.bind_eq_some_iff, Option.pure_def, Option.some.injEq,
    Prod.mk.injEq]
  constructor
  · rintro ⟨_, matched, _, ran, rfl, rfl⟩
    exact ⟨matched, ran⟩
  · rintro ⟨matched, ran⟩
    exact ⟨found, matched, decorrelated, ran, rfl, rfl⟩

/-- The derived table does not depend on the number in its alias. -/
theorem tryDecorrelate_renumbered {inner : AstSelectStatement} {syntheticId : Nat}
    {decorrelated : DecorrelatedSubquery} (ran : tryDecorrelate inner outerScope syntheticId = some decorrelated)
    (other : Nat) : ∃ renumbered, tryDecorrelate inner outerScope other = some renumbered ∧
      renumbered.derivedSelect = decorrelated.derivedSelect := by
  unfold tryDecorrelate at ran ⊢
  split at ran
  · simp only [Option.bind_eq_bind, Option.bind_eq_some_iff] at ran ⊢
    obtain ⟨condition, isCondition, ran⟩ := ran
    split at ran
    · cases ran
    · rename_i notDerived
      split at ran
      · cases ran
      · rename_i plain
        split at ran
        · cases ran
        · rename_i aliased
          split at ran
          · cases ran
          · rename_i first others isKeys
            obtain rfl := Option.some.inj ran
            apply Exists.intro
            constructor
            · refine ⟨condition, isCondition, ?_⟩
              rw [if_neg notDerived, if_neg plain, if_neg aliased]
              simp only [isKeys]
              rfl
            · rfl
  · cases ran

theorem subqueryAlias_injective {number other : Nat} (same : subqueryAlias number = subqueryAlias other) :
    number = other := by
  have sameText := congrArg String.toList same
  simp only [subqueryAlias, String.toList_append, List.append_cancel_left_eq] at sameText
  exact Nat.repr_injective (String.toList_inj.mp sameText)

/-- An operand of a bound expression is bound itself, unless it is an untyped `NULL`. -/
theorem bind_operands {scope : Scope} {allowAggregates : Bool} {op : BinaryOperator} {left right : SqlExpr}
    {bound : Expression} (ran : bind scope allowAggregates (.binary op left right) = .ok bound) :
    (isUntypedNull left = false → ∃ left', bind scope allowAggregates left = .ok left') ∧
      (isUntypedNull right = false → ∃ right', bind scope allowAggregates right = .ok right') := by
  simp only [Binder.bind, bindWith] at ran ⊢
  cases leftNull : isUntypedNull left with
  | true =>
    cases rightNull : isUntypedNull right with
    | true => exact ⟨fun wrong => Bool.noConfusion wrong, fun wrong => Bool.noConfusion wrong⟩
    | false =>
      rw [leftNull, rightNull] at ran
      obtain ⟨right', rightRan, _⟩ := bind_eq_ok.mp ran
      exact ⟨fun wrong => Bool.noConfusion wrong, fun _ => ⟨right', rightRan⟩⟩
  | false =>
    cases rightNull : isUntypedNull right with
    | true =>
      rw [leftNull, rightNull] at ran
      obtain ⟨left', leftRan, _⟩ := bind_eq_ok.mp ran
      exact ⟨fun _ => ⟨left', leftRan⟩, fun wrong => Bool.noConfusion wrong⟩
    | false =>
      rw [leftNull, rightNull] at ran
      obtain ⟨left', leftRan, rest⟩ := bind_eq_ok.mp ran
      obtain ⟨right', rightRan, _⟩ := bind_eq_ok.mp rest
      exact ⟨fun _ => ⟨left', leftRan⟩, fun _ => ⟨right', rightRan⟩⟩

/-- A comparison with a subquery cannot be bound. -/
theorem matchScalarSubqueryComparison_of_bind {scope : Scope} {allowAggregates : Bool} {conjunct : SqlExpr}
    {bound : Expression} (ran : bind scope allowAggregates conjunct = .ok bound) :
    matchScalarSubqueryComparison conjunct = none := by
  cases matched : matchScalarSubqueryComparison conjunct with
  | none => rfl
  | some found =>
    obtain ⟨_, rfl⟩ := matchScalarSubqueryComparison_eq_some matched
    split at ran
    · obtain ⟨_, impossible⟩ := (bind_operands ran).2 rfl
      cases impossible
    · obtain ⟨_, impossible⟩ := (bind_operands ran).1 rfl
      cases impossible

end Recognised

/-! ## Keys -/

/-- The outer and the inner column of a key, which the binder compares. -/
structure KeyPair (inner outer : List JoinSource) (key : Reference × Reference) (pair : Expression × Expression) :
    Prop where
  outerBound : bindColumnRef (.join outer) key.1 = .ok pair.1
  innerBound : bindInnerFirst inner outer key.2 = .ok pair.2
  innerColumn : ∃ name index, pair.2 = .column name index pair.2.resultType
  comparable : ∃ name index result, combineBinary .equal pair.1 (.column name index pair.2.resultType) = .ok result

/-- Whether the values of the inner columns of some keys equal those of the outer columns. -/
def agrees (pairs : List (Expression × Expression)) (row key : Row) : Bool :=
  (pairs.zip key).all (fun (pair, value) => meets pair.1.resultType pair.2.resultType (eval pair.1 row) value)

theorem agrees_cons (pair : Expression × Expression) (pairs : List (Expression × Expression)) (row : Row)
    (value : Value) (key : Row) : agrees (pair :: pairs) row (value :: key) =
      (meets pair.1.resultType pair.2.resultType (eval pair.1 row) value && agrees pairs row key) := rfl

/-- Two keys that agree with one row are one key, if no column is floating-point. -/
theorem agrees_unique {pairs : List (Expression × Expression)} {row first second : Row}
    (outerColumns : ∀ pair ∈ pairs, ∃ name index type, pair.1 = .column name index type ∧
      isFloating type.id = false ∧ fits type (eval pair.1 row) = true)
    (comparable : ∀ pair ∈ pairs, isFloating pair.2.resultType.id = false ∧
      ∃ name index result, combineBinary .equal pair.1 (.column name index pair.2.resultType) = .ok result)
    (firstFits : List.Forall₂ (fun pair value => fits pair.2.resultType value = true) pairs first)
    (secondFits : List.Forall₂ (fun pair value => fits pair.2.resultType value = true) pairs second)
    (firstAgrees : agrees pairs row first = true) (secondAgrees : agrees pairs row second = true) :
    first = second := by
  induction pairs generalizing first second with
  | nil =>
    cases firstFits
    cases secondFits
    rfl
  | cons pair pairs hypothesis =>
    obtain ⟨⟨name, index, type, isColumn, exact, rowFits⟩, outerOthers⟩ := List.forall_mem_cons.mp outerColumns
    obtain ⟨⟨innerExact, name', index', result, ran⟩, othersComparable⟩ := List.forall_mem_cons.mp comparable
    cases firstFits with
    | cons valueFits restFits =>
      cases secondFits with
      | cons valueFits' restFits' =>
        rw [agrees_cons, Bool.and_eq_true] at firstAgrees secondAgrees
        rw [isColumn] at ran rowFits firstAgrees secondAgrees
        rw [identical_of_meets ran exact innerExact rowFits valueFits valueFits' firstAgrees.1 secondAgrees.1,
          hypothesis outerOthers othersComparable restFits restFits' firstAgrees.2 secondAgrees.2]

/-! ## The conditions of a subquery -/

section Conditions

variable {inner outer : List JoinSource} {outerScope : List String}
  (unshadowed : ∀ source ∈ inner, source.tableAlias ∉ outerScope)
include unshadowed

/-- A correlation holds of a row of the subquery where its key does. -/
theorem bind_correlation {conjunct : SqlExpr} {key : Reference × Reference} {pair : Expression × Expression}
    (isKey : correlationKey outerScope conjunct = some key) (paired : KeyPair inner outer key pair)
    (within : refersWithin (widthOf inner) (collectColumns pair.2)) :
    ∃ condition, bindWith (bindInnerFirst inner outer) false conjunct = .ok condition ∧
      ∀ own row, own.length = widthOf inner → (eval condition (own ++ row)).isTrue =
        meets pair.1.resultType pair.2.resultType (eval pair.1 row) (eval pair.2 own) := by
  obtain ⟨written, table, inScope, isTable⟩ := correlationKey_eq_some isKey
  obtain ⟨name, index, type, isColumn⟩ := bindColumnRef_column paired.outerBound
  have outerRan : bindInnerFirst inner outer key.1 = .ok (behind (widthOf inner) pair.1) := by
    rw [bindInnerFirst_outer isTable (fun source member same => unshadowed source member (same ▸ inScope)),
      paired.outerBound]
    rfl
  have moved (own row : Row) (isWidth : own.length = widthOf inner) :
      eval (behind (widthOf inner) pair.1) (own ++ row) = eval pair.1 row := by
    rw [isColumn, ← isWidth]
    change (own ++ row).getD (own.length + index) .raised = row.getD index .raised
    rw [columnValue_right (Nat.le_add_right _ _), Nat.add_sub_cancel_left]
  have alike : Alike pair.1 (behind (widthOf inner) pair.1) := by
    rw [isColumn]
    exact .inr ⟨_, _, _, _, _, rfl, rfl⟩
  obtain ⟨innerName, innerIndex, isInner⟩ := paired.innerColumn
  obtain ⟨name', index', result, ran⟩ := paired.comparable
  have innerAlike : Alike (.column name' index' pair.2.resultType) pair.2 :=
    .inr ⟨_, _, _, _, _, rfl, isInner⟩
  obtain ⟨condition, conditionRan, -⟩ := combineBinary_alike rfl alike innerAlike ran
  have holds (own row : Row) (isWidth : own.length = widthOf inner) : (eval condition (own ++ row)).isTrue =
      meets pair.1.resultType pair.2.resultType (eval pair.1 row) (eval pair.2 own) := by
    rw [isTrue_combineEqual conditionRan, ← alike.resultType, moved own row isWidth, eval_append within isWidth]
  rcases written with rfl | rfl
  · refine ⟨condition, ?_, holds⟩
    simp only [bindWith, columnRef, isUntypedNull, Bool.false_and, Bool.false_eq_true, if_false]
    exact bind_eq_ok.mpr ⟨_, outerRan, bind_eq_ok.mpr ⟨_, paired.innerBound, conditionRan⟩⟩
  · obtain ⟨swapped, swappedRan, same⟩ := combineEqual_comm conditionRan
    refine ⟨swapped, ?_, fun own row isWidth => (same _).trans (holds own row isWidth)⟩
    simp only [bindWith, columnRef, isUntypedNull, Bool.false_and, Bool.false_eq_true, if_false]
    exact bind_eq_ok.mpr ⟨_, paired.innerBound, bind_eq_ok.mpr ⟨_, outerRan, swappedRan⟩⟩

/-- All conditions hold of a row of the subquery where those without a correlation and the keys do. -/
theorem bind_conditions {conjuncts : List SqlExpr} {pairs : List (Expression × Expression)} {bounds : List Expression}
    (paired : List.Forall₂ (KeyPair inner outer) (conjuncts.filterMap (correlationKey outerScope)) pairs)
    (columnsWithin : ∀ pair ∈ pairs, refersWithin (widthOf inner) (collectColumns pair.2))
    (boundsRan : List.Forall₂ (fun conjunct bound => bindWith (bindInnerFirst inner outer) false conjunct = .ok bound)
      (conjuncts.filter (fun conjunct => (correlationKey outerScope conjunct).isNone)) bounds)
    (boundsWithin : ∀ bound ∈ bounds, refersWithin (widthOf inner) (collectColumns bound)) :
    ∃ conditions, conjuncts.mapM (bindWith (bindInnerFirst inner outer) false) = .ok conditions ∧
      ∀ own row, own.length = widthOf inner → passesAll conditions (own ++ row) =
        (passesAll bounds own && agrees pairs row (keyOf (pairs.map Prod.snd) own)) := by
  induction conjuncts generalizing pairs bounds with
  | nil =>
    cases paired
    cases boundsRan
    exact ⟨[], rfl, fun _ _ _ => rfl⟩
  | cons conjunct conjuncts hypothesis =>
    cases isKey : correlationKey outerScope conjunct with
    | none =>
      rw [List.filterMap_cons_none isKey] at paired
      rw [List.filter_cons_of_pos (by simp [isKey])] at boundsRan
      cases boundsRan with
      | @cons _ bound _ bounds boundRan othersRan =>
        obtain ⟨within, othersWithin⟩ := List.forall_mem_cons.mp boundsWithin
        obtain ⟨conditions, conditionsRan, same⟩ := hypothesis paired columnsWithin othersRan othersWithin
        refine ⟨bound :: conditions, mapM_eq_ok.mpr (.cons boundRan (mapM_eq_ok.mp conditionsRan)), ?_⟩
        intro own row isWidth
        have others := same own row isWidth
        simp only [passesAll, List.all_cons] at others ⊢
        rw [others, eval_append within isWidth, Bool.and_assoc]
    | some key =>
      rw [List.filterMap_cons_some isKey] at paired
      rw [List.filter_cons_of_neg (by simp [isKey])] at boundsRan
      cases paired with
      | @cons _ pair _ pairs first others =>
        obtain ⟨within, othersWithin⟩ := List.forall_mem_cons.mp columnsWithin
        obtain ⟨condition, conditionRan, holds⟩ := bind_correlation unshadowed isKey first within
        obtain ⟨conditions, conditionsRan, same⟩ := hypothesis others othersWithin boundsRan boundsWithin
        refine ⟨condition :: conditions, mapM_eq_ok.mpr (.cons conditionRan (mapM_eq_ok.mp conditionsRan)), ?_⟩
        intro own row isWidth
        have rest := same own row isWidth
        simp only [passesAll, List.all_cons, keyOf, List.map_cons, agrees_cons] at rest ⊢
        rw [rest, holds own row isWidth, Bool.and_left_comm]

end Conditions

/-! ## The conditions of a join -/

section Joined

variable {inner outer : List JoinSource} {scope : Scope} {derivedAlias : String} {base : Nat}

/-- Each equality with a key column of the derived table holds of a row where the outer column meets the key. -/
theorem bind_keyConditions {keys : List (Reference × Reference)} {start : Nat} {columns conditions : List Expression}
    (outerFound : ∀ key ∈ keys, ∀ column, bindColumnRef scope key.1 = .ok column →
      bindColumnRef (.join outer) key.1 = .ok column)
    (innerBound : List.Forall₂ (fun key column => bindInnerFirst inner outer key.2 = .ok column ∧
      ∃ name index, column = .column name index column.resultType) keys columns)
    (keyColumns : ∀ number column, columns[number]? = some column →
      bindColumnRef scope ⟨ScalarDecorrelation.keyColumn (start + number), some derivedAlias⟩ =
        .ok (.column (ScalarDecorrelation.keyColumn (start + number)) (base + (start + number)) column.resultType))
    (ran : List.Forall₂ (fun conjunct bound => bind scope false conjunct = .ok bound)
      ((keys.zipIdx start).map (fun (key, number) => keyCondition derivedAlias key number)) conditions) :
    ∃ pairs, List.Forall₂ (KeyPair inner outer) keys pairs ∧ pairs.map Prod.snd = columns ∧
      ∀ row key, List.length key = columns.length →
        (∀ number value, key[number]? = some value → columnValue row (base + (start + number)) = value) →
          conditions.map (fun condition => (eval condition row).isTrue) = (pairs.zip key).map (fun (pair, value) =>
            meets pair.1.resultType pair.2.resultType (eval pair.1 row) value) := by
  induction keys generalizing start columns conditions with
  | nil =>
    cases innerBound
    cases ran
    exact ⟨[], .nil, rfl, fun _ _ _ _ => rfl⟩
  | cons key keys hypothesis =>
    obtain ⟨firstFound, othersFound⟩ := List.forall_mem_cons.mp outerFound
    rw [List.zipIdx_cons, List.map_cons] at ran
    cases innerBound with
    | @cons _ column _ columns inner innerOthers =>
      cases ran with
      | @cons _ condition _ conditions conditionRan othersRan =>
        have later (number : Nat) : start + 1 + number = start + (number + 1) := by omega
        have laterColumns : ∀ number column, columns[number]? = some column →
            bindColumnRef scope ⟨ScalarDecorrelation.keyColumn (start + 1 + number), some derivedAlias⟩ =
              .ok (.column (ScalarDecorrelation.keyColumn (start + 1 + number)) (base + (start + 1 + number))
                column.resultType) := by
          intro number column held
          rw [later]
          exact keyColumns (number + 1) column held
        obtain ⟨pairs, paired, isColumns, same⟩ := hypothesis othersFound innerOthers laterColumns othersRan
        have isKey := keyColumns 0 column rfl
        rw [Nat.add_zero] at isKey
        simp only [keyCondition, Binder.bind, bindWith, columnRef, isUntypedNull, Bool.false_and,
          Bool.false_eq_true, if_false] at conditionRan
        obtain ⟨left, leftRan, rest⟩ := bind_eq_ok.mp conditionRan
        obtain ⟨right, rightRan, combined⟩ := bind_eq_ok.mp rest
        obtain rfl := Except.ok.inj (isKey.symm.trans rightRan)
        refine ⟨(left, column) :: pairs, .cons ⟨firstFound left leftRan, inner.1, inner.2, _, _, _, combined⟩ paired,
          by rw [List.map_cons, isColumns], ?_⟩
        intro row values length held
        cases values with
        | nil => cases length
        | cons value values =>
          have others := same row values (Nat.succ.inj length) (fun number found isFound => by
            rw [later]
            exact held (number + 1) found isFound)
          have isValue := held 0 value rfl
          rw [List.map_cons, List.zip_cons_cons, List.map_cons, others, isTrue_combineEqual combined]
          change meets _ _ _ (columnValue row (base + start)) :: _ = _
          rw [← isValue]
          rfl

end Joined

/-! ## Comparisons with a value -/

section Comparison

variable {op : BinaryOperator} (comparison : isComparison op = true)
include comparison

theorem binaryValue_comparison (type : DataType) (value other : Value) :
    binaryValue op type value other = (compareValues value other).truth op := by
  cases op <;> first | rfl | cases comparison

/-- The operands of a comparison are compared as they are, or cast to a common numeric type. -/
theorem combineComparison_eq_ok {left right result : Expression} (ran : combineBinary op left right = .ok result) :
    ∃ left' right' type, result = .binary op left' right' type ∧
      (left' = left ∧ right' = right ∨ isNumeric left.resultType.id = true ∧ isNumeric right.resultType.id = true ∧
        ∃ common, castIfNeeded left common = .ok left' ∧ castIfNeeded right common = .ok right') := by
  have notArithmetic : isArithmetic op = false := by cases op <;> first | rfl | cases comparison
  have notLogical : isLogical op = false := by cases op <;> first | rfl | cases comparison
  simp only [combineBinary, notArithmetic, notLogical, Bool.false_eq_true, if_false] at ran
  split at ran
  · exact ⟨left, right, _, (Except.ok.inj ran).symm, .inl ⟨rfl, rfl⟩⟩
  · split at ran
    · rename_i numeric
      obtain ⟨leftNumeric, rightNumeric⟩ := Bool.and_eq_true_iff.mp numeric
      simp only [bind_eq_ok, pure_eq_ok] at ran
      obtain ⟨common, _, left', leftRan, right', rightRan, rfl⟩ := ran
      exact ⟨left', right', _, rfl, .inr ⟨leftNumeric, rightNumeric, common, leftRan, rightRan⟩⟩
    · cases ran

/-- A comparison with `NULL` is not `TRUE`. -/
theorem isTrue_combineBinary_null {left right result : Expression} (ran : combineBinary op left right = .ok result)
    {row : Row} (null : eval left row = .null ∨ eval right row = .null) : (eval result row).isTrue = false := by
  obtain ⟨left', right', type, rfl, operands⟩ := combineComparison_eq_ok comparison ran
  have castNull {operand cast : Expression} {target : DataType} (numeric : isNumeric operand.resultType.id = true)
      (castRan : castIfNeeded operand target = .ok cast) (isNull : eval operand row = .null) :
      eval cast row = .null := by
    rw [eval, evalIn_castIfNeeded numeric castRan, ← eval, isNull, converted]
    split <;> rfl
  have null' : eval left' row = .null ∨ eval right' row = .null := by
    rcases operands with ⟨rfl, rfl⟩ | ⟨leftNumeric, rightNumeric, common, leftRan, rightRan⟩
    · exact null
    · exact null.imp (castNull leftNumeric leftRan) (castNull rightNumeric rightRan)
  change (binaryValue op type (eval left' row) (eval right' row)).isTrue = false
  have unordered : compareValues (eval left' row) (eval right' row) = .unknown ∨
      compareValues (eval left' row) (eval right' row) = .failed := by
    rcases null' with isNull | isNull
    · rw [isNull]
      cases eval right' row <;> simp [compareValues]
    · rw [isNull]
      cases eval left' row <;> simp [compareValues]
  rw [binaryValue_comparison comparison]
  rcases unordered with unknown | failed
  · rw [unknown]
    rfl
  · rw [failed]
    rfl

end Comparison

section Width

theorem length_chainSchema (sources : List JoinSource) : (chainSchema sources).length = widthOf sources := by
  induction sources with
  | nil => rfl
  | cons source sources hypothesis =>
    rw [chainSchema, List.flatMap_cons, List.length_append, length_deliveredFields, widthOf, List.length_cons,
      offsetOf_succ]
    exact congrArg _ hypothesis

theorem widthOf_append (sources more : List JoinSource) :
    widthOf (sources ++ more) = widthOf sources + widthOf more := by
  simp only [← length_chainSchema, chainSchema_append, List.length_append]

end Width

section Compared

variable {scope : Scope} {outer : List JoinSource} {found : ScalarSubqueryComparison}
  {decorrelated : DecorrelatedSubquery} {name : String} {index : Nat} {type : DataType}

theorem bind_comparedColumn (isValue : bindColumnRef scope
      ⟨decorrelated.valueColumnName, some decorrelated.derivedAlias⟩ = .ok (.column name index type)) :
    bind scope false (comparedColumn found decorrelated) = bindComparison scope found (.column name index type) := by
  have isColumn (reference : Reference) : isUntypedNull (columnRef reference) = false := rfl
  have bound (reference : Reference) : bindWith (bindColumnRef scope) false (columnRef reference) =
      bindColumnRef scope reference := rfl
  unfold comparedColumn bindComparison
  cases untyped : isUntypedNull found.outerExpr <;> cases found.subqueryOnRight <;>
    simp only [Binder.bind, bindWith, isColumn, bound, untyped, isValue, Bool.not_false, Bool.not_true,
      Bool.and_true, Bool.and_false, Bool.false_eq_true, if_true, if_false] <;> rfl

/-- A comparison with a column of the joined row is bound like the one with a value behind the row of the sources,
and has its value. -/
theorem bindComparison_behind {compared : Expression} (kept : ∀ source ∈ outer, keepsRight source.joinType = true)
    (names : Agrees (bindColumnRef scope) (bindColumnRef (.join outer)) (references found.outerExpr))
    (comparison : isComparison found.op = true)
    (ran : bindComparison scope found (.column name index type) = .ok compared) :
    ∃ compared', bindComparison (.join outer) found (.column "" (widthOf outer) type) = .ok compared' ∧
      (∀ row, widthOf outer ≤ row.length →
        eval compared row = eval compared' (row.take (widthOf outer) ++ [columnValue row index])) ∧
      ∀ row, row.length = widthOf outer → (eval compared' (row ++ [.null])).isTrue = false := by
  obtain ⟨operand, isOperand, combined⟩ := bind_eq_ok.mp ran
  -- The other operand is bound to the same expression, which reads columns of the sources only.
  have isOperand' : (if isUntypedNull found.outerExpr then .ok (makeNull type)
      else bind (.join outer) false found.outerExpr : Except String Expression) = .ok operand ∧
      refersWithin (widthOf outer) (collectColumns operand) := by
    split at isOperand
    · rename_i untyped
      rw [if_pos untyped, ← Except.ok.inj isOperand]
      exact ⟨rfl, fun index member => by cases member⟩
    · rename_i typed
      have bound := bindWith_agrees false _ names operand isOperand
      rw [if_neg typed, ← length_chainSchema]
      refine ⟨bound, ?_⟩
      exact bind_within (scopeWithin_join kept) bound
  have own (row : Row) (isWidth : row.length = widthOf outer) (value : Value) :
      eval (.column "" (widthOf outer) type) (row ++ [value]) = value := by
    change (row ++ [value]).getD (widthOf outer) .raised = value
    rw [columnValue_right (Nat.le_of_eq isWidth), isWidth, Nat.sub_self]
    rfl
  have alike : Alike (.column name index type) (.column "" (widthOf outer) type) := .inr ⟨_, _, _, _, _, rfl, rfl⟩
  have sameOperand (row : Row) (isWide : widthOf outer ≤ row.length) (value : Value) :
      eval operand row = eval operand (row.take (widthOf outer) ++ [value]) := by
    rw [eval_append isOperand'.2 (List.length_take_of_le isWide), eval_take isOperand'.2]
  have sameValue (row : Row) (isWide : widthOf outer ≤ row.length) :
      eval (.column name index type) row =
        eval (.column "" (widthOf outer) type) (row.take (widthOf outer) ++ [columnValue row index]) :=
    (own _ (List.length_take_of_le isWide) _).symm
  cases side : found.subqueryOnRight with
  | true =>
    simp only [side, if_true] at combined
    obtain ⟨compared', combined', same⟩ := combineBinary_alike comparison (.inl rfl) alike combined
    refine ⟨compared', bind_eq_ok.mpr ⟨operand, isOperand'.1, by rw [if_pos side]; exact combined'⟩, ?_, ?_⟩
    · exact fun row isWide => same _ _ (sameOperand row isWide _) (sameValue row isWide)
    · exact fun row isWidth => isTrue_combineBinary_null comparison combined' (.inr (own row isWidth _))
  | false =>
    simp only [side, Bool.false_eq_true, if_false] at combined
    obtain ⟨compared', combined', same⟩ := combineBinary_alike comparison alike (.inl rfl) combined
    refine ⟨compared', bind_eq_ok.mpr ⟨operand, isOperand'.1, by rw [if_neg (by simp [side])]; exact combined'⟩, ?_, ?_⟩
    · exact fun row isWide => same _ _ (sameValue row isWide) (sameOperand row isWide _)
    · exact fun row isWidth => isTrue_combineBinary_null comparison combined' (.inl (own row isWidth _))

end Compared

/-! ## The value of a subquery -/

section Value

variable {catalog : Catalog} {tables : Tables} {outer : List JoinSource} {outerScope : List String}
  {sub derivedStatement : AstSelectStatement} {keys : List (Reference × Reference)}
  {item : AstSelectItem AstSelectStatement} {plan : LogicalPlan} {innerRows : List Row}
  {columns bounds : List Expression} {value : Expression}
  (keeps : KeepsValue catalog outer outerScope sub derivedStatement)
  (derived : DerivedFrom catalog tables sub keys
    ((whereConjuncts sub).filter (fun conjunct => (correlationKey outerScope conjunct).isNone)) item.expr plan
    innerRows columns bounds value)
  (isItem : sub.selectList = [item]) (notDerived : sub.fromSubquery = none)
  (aliased : sub.join = none → sub.source.tableAlias.isSome = true)
  (isKeys : (whereConjuncts sub).filterMap (correlationKey outerScope) = keys)
include keeps derived

include isKeys in
/-- The rows of the subquery that agree with a row of the sources around it have one key. -/
theorem key_unique {pairs : List (Expression × Expression)} {row first second : Row}
    (outerKept : ∀ source ∈ outer, keepsRight source.joinType = true) (rowFits : RowFits (chainSchema outer) row)
    (paired : List.Forall₂ (KeyPair (sourcesOf catalog sub) outer) keys pairs)
    (isColumns : pairs.map Prod.snd = columns) (firstIn : first ∈ innerRows) (secondIn : second ∈ innerRows)
    (firstAgrees : agrees pairs row (keyOf columns first) = true)
    (secondAgrees : agrees pairs row (keyOf columns second) = true) : keyOf columns first = keyOf columns second := by
  have exact {key : Reference × Reference} (member : key ∈ keys) {column : Expression}
      (found : bindInnerFirst (sourcesOf catalog sub) outer key.1 = .ok column ∨
        bindInnerFirst (sourcesOf catalog sub) outer key.2 = .ok column) :
      isFloating column.resultType.id = false := by
    rw [← isKeys] at member
    obtain ⟨conjunct, inWhere, isKey⟩ := List.mem_filterMap.mp member
    exact keeps.exactKeys conjunct inWhere key isKey column found
  have fitting {own : Row} (member : own ∈ innerRows) :
      List.Forall₂ (fun pair value => fits pair.2.resultType value = true) pairs (keyOf columns own) := by
    rw [keyOf, ← isColumns, List.map_map, List.forall₂_map_right_iff]
    refine List.forall₂_same.mpr (fun pair inPairs => ?_)
    obtain ⟨key, _, found⟩ := exists_of_mem_right derived.columnsBound
      (isColumns ▸ List.mem_map_of_mem inPairs : pair.2 ∈ columns)
    obtain ⟨name, index, type, isColumn, _, valueFits⟩ := column_fits keeps.innerKept
      (rowFits_sourceRows keeps.overTables derived.sourced own member) found
    rw [Function.comp_apply, isColumn]
    exact valueFits
  refine agrees_unique (fun pair inPairs => ?_) (fun pair inPairs => ?_) (fitting firstIn) (fitting secondIn)
    firstAgrees secondAgrees
  · obtain ⟨key, inKeys, isPair⟩ := exists_of_mem_right paired inPairs
    obtain ⟨name, index, type, isColumn, _, valueFits⟩ := column_fits outerKept rowFits isPair.outerBound
    refine ⟨name, index, type, isColumn, ?_, by rw [isColumn]; exact valueFits⟩
    have inWhere := inKeys
    rw [← isKeys] at inWhere
    obtain ⟨conjunct, _, isKey⟩ := List.mem_filterMap.mp inWhere
    obtain ⟨_, table, inScope, isTable⟩ := correlationKey_eq_some isKey
    have found : bindInnerFirst (sourcesOf catalog sub) outer key.1 = _ := bindInnerFirst_outer isTable
      (fun source member same => keeps.unshadowed source member (same ▸ inScope))
    rw [isPair.outerBound, isColumn] at found
    exact exact inKeys (.inl found)
  · obtain ⟨key, inKeys, isPair⟩ := exists_of_mem_right paired inPairs
    exact ⟨exact inKeys (.inr isPair.innerBound), isPair.comparable⟩

include notDerived aliased

include isKeys in
/-- The key columns of the derived table are the inner columns of the keys. -/
theorem columns_bound : List.Forall₂ (fun key column =>
    bindInnerFirst (sourcesOf catalog sub) outer key.2 = .ok column ∧
      ∃ name index, column = .column name index column.resultType) keys columns := by
  have own (key : Reference × Reference) (member : key ∈ keys) (isJoin : sub.join = none) :
      key.2.table = none ∨ key.2.table = sub.source.tableAlias := by
    rw [← isKeys] at member
    obtain ⟨conjunct, inWhere, isKey⟩ := List.mem_filterMap.mp member
    refine keeps.ownQualifiers isJoin key.2 (List.mem_append_right _ (List.mem_flatMap.mpr ⟨conjunct, inWhere, ?_⟩))
    rw [isKey]
    exact List.mem_singleton_self _
  have bound := derived.columnsBound
  clear derived isKeys
  induction bound with
  | nil => exact .nil
  | @cons key column _ _ found _ hypothesis =>
    obtain ⟨ownFirst, ownOthers⟩ := List.forall_mem_cons.mp own
    refine .cons ⟨bindInnerFirst_adapted notDerived aliased ownFirst found, ?_⟩ (hypothesis ownOthers)
    obtain ⟨name, index, type, rfl⟩ := bindColumnRef_column found
    exact ⟨name, index, rfl⟩

include isItem in
/-- The value of the derived table is that of the subquery, an aggregate that is `NULL` over no rows. -/
theorem value_bound : aggregateItem sub = some item.expr ∧
    bindWith (bindInnerFirst (sourcesOf catalog sub) outer) true item.expr = .ok value ∧
      referencesUngroupedColumn [] false value = false ∧ groupValue ([], []) value = .null := by
  obtain ⟨expression, bound, isAggregate, ran, grouped, isNull⟩ := keeps.emptyValue
  have isExpression : expression = item.expr := by
    simp only [aggregateItem, isItem] at isAggregate
    split at isAggregate
    · exact (Option.some.inj isAggregate).symm
    · cases isAggregate
  rw [isExpression] at isAggregate ran
  have found : bindWith (bindInnerFirst (sourcesOf catalog sub) outer) true item.expr = .ok value :=
    bindWith_adapted notDerived aliased (fun isJoin reference member => keeps.ownQualifiers isJoin reference
      (List.mem_append_left _ (by simpa [isItem] using member))) derived.valueBound
  obtain rfl := Except.ok.inj (found.symm.trans ran)
  exact ⟨isAggregate, ran, grouped, isNull⟩

include isItem isKeys

/-- The value of a subquery for a row of the sources around it is computed over those rows of its own that pass the
conditions without a correlation and whose keys agree with the row. -/
theorem scalarValue_agrees {pairs : List (Expression × Expression)}
    (paired : List.Forall₂ (KeyPair (sourcesOf catalog sub) outer) keys pairs)
    (isColumns : pairs.map Prod.snd = columns) :
    ∃ scalar, scalarValue catalog tables outer sub = .ok (value.resultType, scalar) ∧ ∀ row, scalar row =
      groupValue ([], (innerRows.filter (passesAll bounds)).filter
        (fun own => agrees pairs row (keyOf columns own))) value := by
  have width : ∀ own ∈ innerRows, own.length = widthOf (sourcesOf catalog sub) := by
    intro own member
    rw [← length_chainSchema]
    exact (rowFits_sourceRows keeps.overTables derived.sourced own member).length_eq.symm
  have within {allowAggregates : Bool} {expression : SqlExpr} {bound : Expression}
      (ran : bind (.join (sourcesOf catalog sub)) allowAggregates expression = .ok bound) :
      refersWithin (widthOf (sourcesOf catalog sub)) (collectColumns bound) := by
    rw [← length_chainSchema]
    exact bind_within (scopeWithin_join keeps.innerKept) ran
  have columnsWithin : ∀ pair ∈ pairs, refersWithin (widthOf (sourcesOf catalog sub)) (collectColumns pair.2) := by
    intro pair member
    obtain ⟨key, inKeys, found⟩ := exists_of_mem_right derived.columnsBound
      (isColumns ▸ List.mem_map_of_mem member : pair.2 ∈ columns)
    have bound : bind (.join (sourcesOf catalog sub)) false (columnRef (adaptReference sub key.2)) = .ok pair.2 := found
    exact within bound
  have boundsWithin : ∀ bound ∈ bounds, refersWithin (widthOf (sourcesOf catalog sub)) (collectColumns bound) := by
    intro bound member
    obtain ⟨conjunct, inWhere, ran⟩ := exists_of_mem_right derived.boundsBound member
    exact within ran
  have boundsRan : List.Forall₂ (fun conjunct bound =>
      bindWith (bindInnerFirst (sourcesOf catalog sub) outer) false conjunct = .ok bound)
      ((whereConjuncts sub).filter (fun conjunct => (correlationKey outerScope conjunct).isNone)) bounds := by
    refine mapM_eq_ok.mp (mapM_of_imp (fun conjunct member bound ran => ?_) (mapM_eq_ok.mpr derived.boundsBound))
    obtain ⟨inWhere, noKey⟩ := List.mem_filter.mp member
    refine bindWith_adapted notDerived aliased (fun isJoin reference inConjunct => ?_) ran
    refine keeps.ownQualifiers isJoin reference (List.mem_append_right _ (List.mem_flatMap.mpr ⟨conjunct, inWhere, ?_⟩))
    rwa [Option.isNone_iff_eq_none.mp noKey]
  rw [← isKeys] at paired
  obtain ⟨conditions, conditionsRan, same⟩ :=
    bind_conditions keeps.unshadowed paired columnsWithin boundsRan boundsWithin
  obtain ⟨isAggregate, valueRan, grouped, -⟩ :=
    value_bound keeps derived isItem notDerived aliased
  refine ⟨fun row => groupValue ([], (innerRows.map (· ++ row)).filter (passesAll conditions)) value, ?_, ?_⟩
  · unfold scalarValue
    rw [isAggregate]
    refine bind_eq_ok.mpr ⟨_, derived.sourced, bind_eq_ok.mpr ⟨_, conditionsRan, bind_eq_ok.mpr ⟨_, valueRan, ?_⟩⟩⟩
    rw [if_neg (by simp [grouped])]
    rfl
  · intro row
    have kept : (innerRows.map (· ++ row)).filter (passesAll conditions) =
        ((innerRows.filter (passesAll bounds)).filter (fun own => agrees pairs row (keyOf columns own))).map
          (· ++ row) := by
      rw [List.filter_map, List.filter_filter]
      refine congrArg _ (List.filter_congr (fun own member => ?_))
      rw [Function.comp_apply, same own row (width own member), isColumns, Bool.and_comm]
    have cut : ((innerRows.filter (passesAll bounds)).filter (fun own => agrees pairs row (keyOf columns own))).map
        (List.take (widthOf (sourcesOf catalog sub)) ∘ (· ++ row)) =
          (innerRows.filter (passesAll bounds)).filter (fun own => agrees pairs row (keyOf columns own)) := by
      conv_rhs => rw [← List.map_id' (List.filter _ _)]
      refine List.map_congr_left (fun own member => ?_)
      rw [Function.comp_apply, ← width own (List.mem_of_mem_filter (List.mem_of_mem_filter member))]
      exact List.take_left
    simp only
    rw [kept, ← groupValue_take (within derived.valueBound) [] [], List.map_map, cut]

end Value

end KernelLake.CorrelatedValues
