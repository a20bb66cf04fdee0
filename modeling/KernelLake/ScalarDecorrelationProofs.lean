import KernelLake.CorrelatedValues

/-!
When a correlated scalar subquery as a join means what is written.

A row of the sources meets the one group of the derived table whose keys equal its own, and the value of that group
is the subquery's value for the row. Where it meets none the subquery has no rows: its value is `NULL`, and the
comparison with it is not `TRUE`.
-/

namespace KernelLake.ScalarDecorrelationProofs

open KernelLake.Types KernelLake.Expressions KernelLake.Evaluation KernelLake.LogicalPlans KernelLake.SqlAst
open KernelLake.Binder KernelLake.QueryBinding KernelLake.QueryBindingProofs KernelLake.JoinBinding
open KernelLake.LogicalPlanner KernelLake.PlanSemantics KernelLake.PlannedRows KernelLake.JoinConditions
open KernelLake.ColumnProofs KernelLake.BindingProofs KernelLake.Optimizer KernelLake.RequiredColumns
open KernelLake.PlannedColumns KernelLake.AggregatePlanning KernelLake.UnqualifiedNames KernelLake.ExistsRewriting
open KernelLake.ExistsRewritingProofs KernelLake.ScalarDecorrelation KernelLake.CorrelationKeys
open KernelLake.DerivedTables KernelLake.CorrelatedValues KernelLake.Library.Relations KernelLake.Library.Results

/-! ## A conjunct as a join -/

section Scopes

variable {sources more : List JoinSource} {source : JoinSource} {table name : String}

/-- A name with the alias of a new source is looked up in it. -/
theorem bindColumnRef_fresh (fresh : ∀ other ∈ sources, other.tableAlias ≠ source.tableAlias) :
    bindColumnRef (.join (sources ++ source :: more)) ⟨name, some source.tableAlias⟩ =
      resolveColumn source.schema (widthOf sources) name := by
  have held : (sources ++ source :: more)[sources.length]? = some source := by simp
  have offset : offsetOf (sources ++ source :: more) sources.length = widthOf sources := by
    rw [offsetOf, List.take_left, widthOf, offsetOf, List.take_length]
  have found : resolveQualified source.tableAlias name 0 (sources ++ source :: more) = _ :=
    resolveQualified_first held (fun earlier before other isOther => by
      rw [List.getElem?_append_left before] at isOther
      exact fresh other (List.mem_of_getElem? isOther))
  simp only [bindColumnRef]
  rw [found, offset, Nat.zero_add]
  rfl

/-- A qualifier that is an alias of the first sources is not looked up in later ones. -/
theorem resolveQualified_append {offset : Nat} (present : ∃ source ∈ sources, source.tableAlias = table) :
    resolveQualified table name offset (sources ++ more) = resolveQualified table name offset sources := by
  induction sources generalizing offset with
  | nil =>
    obtain ⟨_, member, _⟩ := present
    cases member
  | cons first sources hypothesis =>
    rw [List.cons_append, resolveQualified, resolveQualified]
    split
    · rfl
    · rename_i different
      obtain ⟨source, member, isAlias⟩ := present
      rcases List.mem_cons.mp member with rfl | inRest
      · exact absurd isAlias different
      · exact hypothesis ⟨source, inRest, isAlias⟩

theorem bindColumnRef_append (present : ∃ source ∈ sources, source.tableAlias = table) {column : Expression}
    (ran : bindColumnRef (.join (sources ++ more)) ⟨name, some table⟩ = .ok column) :
    bindColumnRef (.join sources) ⟨name, some table⟩ = .ok column := by
  simp only [bindColumnRef, resolveQualified_append present] at ran ⊢
  cases found : resolveQualified table name 0 sources with
  | none =>
    rw [found] at ran
    cases ran
  | some result =>
    rwa [found] at ran

end Scopes

/-- What the conditions of a join with a derived table say of a row: that the outer columns meet the keys, and that
the comparison holds of the value. -/
structure JoinedConditions (width outerWidth : Nat) (pairs : List (Expression × Expression))
    (conditions : List Expression) (compared comparison : Expression) : Prop where
  keys : ∀ row key value more, List.length row = width → List.length key = pairs.length →
    conditions.map (fun condition => (eval condition (row ++ (key ++ [value]) ++ more)).isTrue) =
      (pairs.zip key).map (fun (pair, item) =>
        meets pair.1.resultType pair.2.resultType (eval pair.1 (row.take outerWidth)) item)
  value : ∀ row key value more, List.length row = width → List.length key = pairs.length →
    eval compared (row ++ (key ++ [value]) ++ more) = eval comparison (row.take outerWidth ++ [value])

section Rows

variable {width outerWidth : Nat} {pairs : List (Expression × Expression)} {on compared comparison value : Expression}
  {extras columns : List Expression} {left right : List Row}
  (conditions : JoinedConditions width outerWidth pairs (on :: extras) compared comparison)
  (isWidth : ∀ row ∈ left, row.length = width) (isColumns : pairs.map Prod.snd = columns)
include conditions

theorem JoinedConditions.passesAll_eq {row key : Row} (rowWidth : row.length = width)
    (keyWidth : key.length = pairs.length) (item : Value) (more : Row) :
    passesAll (on :: extras) (row ++ (key ++ [item]) ++ more) = agrees pairs (row.take outerWidth) key := by
  have same := congrArg (List.all · id) (conditions.keys row key item more rowWidth keyWidth)
  simpa only [passesAll, agrees, List.all_map, Function.id_comp] using same

/-- The conditions behind a join do not see the columns of later sources. -/
theorem JoinedConditions.passesAll_append {row key : Row} (rowWidth : row.length = width)
    (keyWidth : key.length = pairs.length) (item : Value) (more : Row) :
    passesAll (compared :: extras) (row ++ (key ++ [item]) ++ more) =
      passesAll (compared :: extras) (row ++ (key ++ [item])) := by
  have without := conditions.keys row key item [] rowWidth keyWidth
  have withoutValue := conditions.value row key item [] rowWidth keyWidth
  rw [List.append_nil] at without withoutValue
  have same := (conditions.keys row key item more rowWidth keyWidth).trans without.symm
  have sameExtras := congrArg (List.all · id) (List.cons.inj same).2
  simp only [List.all_map, Function.id_comp] at sameExtras
  simp only [passesAll, List.all_cons, conditions.value row key item more rowWidth keyWidth, withoutValue]
  exact congrArg _ sameExtras

include isWidth isColumns

/-- The rows of the sources that have a partner in the derived table are those for which the comparison holds of the
value over the rows that agree with them. -/
theorem filter_joinRows (rightWidth : Nat)
    (single : ∀ row ∈ left, ∀ first ∈ right, ∀ second ∈ right,
      agrees pairs (row.take outerWidth) (keyOf columns first) = true →
        agrees pairs (row.take outerWidth) (keyOf columns second) = true → keyOf columns first = keyOf columns second)
    (empty : ∀ row ∈ left, (eval comparison (row.take outerWidth ++ [groupValue ([], []) value])).isTrue = false)
    (outerWithin : outerWidth ≤ width) :
    ((joinRows (holdsOn on) .inner rightWidth left ((groupRows (keyOf columns) right).map
        (groupRow value))).filter (passesAll (compared :: extras))).map
          (List.take outerWidth) =
      (left.map (List.take outerWidth)).filter (fun row => (eval comparison (row ++
        [groupValue ([], right.filter (fun own => agrees pairs row (keyOf columns own))) value])).isTrue) := by
  have keyWidth {group : Row × List Row} (member : group ∈ groupRows (keyOf columns) right) :
      group.1.length = pairs.length := by
    obtain ⟨first, -, isKey⟩ := List.mem_map.mp (mem_groupRows.mp member).1
    rw [← isKey, keyOf, List.length_map, ← isColumns, List.length_map]
  have matched : ∀ row ∈ left, ∀ group ∈ groupRows (keyOf columns) right,
      (holdsOn on (id row) (groupRow value group) && passesAll (compared :: extras) (id row ++ groupRow value group)) =
        (agrees pairs (row.take outerWidth) group.1 &&
          (eval comparison (row.take outerWidth ++ [groupValue ([], group.2) value])).isTrue) := by
    intro row isRow group member
    have keys := conditions.passesAll_eq (isWidth row isRow) (keyWidth member) (groupValue group value) []
    have isValue := conditions.value row group.1 (groupValue group value) [] (isWidth row isRow) (keyWidth member)
    rw [List.append_nil] at keys isValue
    have sameGroup : groupValue ([], group.2) value = groupValue group value := rfl
    rw [sameGroup, ← isValue, ← keys]
    simp only [holdsOn, passesAll, List.all_cons, id_eq, groupRow]
    rw [Bool.and_right_comm, Bool.and_assoc]
  have paired := @innerJoin_map _ _ _ _ _
    (fun row other => holdsOn on row other && passesAll (compared :: extras) (row ++ other)) id (groupRow value) _ _
    matched
  rw [List.map_id] at paired
  have joined := @innerJoin_groupRows _ _ _ _ _ (keyOf columns)
    (fun (row : Row) key => agrees pairs (row.take outerWidth) key) (fun members => groupValue ([], members) value)
    (fun row item => (eval comparison (row.take outerWidth ++ [item])).isTrue) _ _ single empty
  rw [joinRows, List.filter_map, List.map_map]
  change List.map _ (List.filter (fun (pair : Row × Row) => passesAll (compared :: extras) (pair.1 ++ pair.2)) _) = _
  rw [filter_innerJoin, paired, List.map_map, List.filter_map]
  refine Eq.trans ?_ (congrArg (List.map (List.take outerWidth)) joined)
  rw [List.map_map]
  refine List.map_congr_left (fun pair member => ?_)
  have isLeft := (mem_innerJoin.mp member).1
  exact List.take_append_of_le_length (isWidth _ isLeft ▸ outerWithin)

end Rows

section Join

theorem columnValue_group {row key : Row} {item : Value} (number : Nat) (value : Value) (more : Row)
    (held : (key ++ [value])[number]? = some item) :
    columnValue (row ++ (key ++ [value]) ++ more) (row.length + number) = item := by
  have inside := (List.getElem?_eq_some_iff.mp held).1
  rw [columnValue, List.append_assoc, columnValue_right (Nat.le_add_right _ _), Nat.add_sub_cancel_left,
    columnValue_left inside, List.getD_eq_getElem?_getD, held]
  rfl

/-- Conditions that are bound say of a joined row what the keys and the value of its group say. -/
theorem exists_joinedConditions {inner outer : List JoinSource} {scope : Scope} {derivedAlias : String} {width : Nat}
    {keys : List (Reference × Reference)} {columns conditions : List Expression} {found : ScalarSubqueryComparison}
    {compared : Expression} {name : String} {type : DataType}
    (outerKept : ∀ source ∈ outer, keepsRight source.joinType = true) (wide : widthOf outer ≤ width)
    (outerFound : ∀ key ∈ keys, ∀ column, bindColumnRef scope key.1 = .ok column →
      bindColumnRef (.join outer) key.1 = .ok column)
    (names : Agrees (bindColumnRef scope) (bindColumnRef (.join outer)) (references found.outerExpr))
    (innerBound : List.Forall₂ (fun key column => bindInnerFirst inner outer key.2 = .ok column ∧
      ∃ name index, column = .column name index column.resultType) keys columns)
    (keyColumns : ∀ number column, columns[number]? = some column →
      bindColumnRef scope ⟨ScalarDecorrelation.keyColumn number, some derivedAlias⟩ =
        .ok (.column (ScalarDecorrelation.keyColumn number) (width + number) column.resultType))
    (conditionsRan : List.Forall₂ (fun conjunct bound => bind scope false conjunct = .ok bound)
      (keys.zipIdx.map (fun (key, number) => keyCondition derivedAlias key number)) conditions)
    (comparison : isComparison found.op = true)
    (comparedRan : bindComparison scope found (.column name (width + columns.length) type) = .ok compared) :
    ∃ pairs comparison, List.Forall₂ (KeyPair inner outer) keys pairs ∧ pairs.map Prod.snd = columns ∧
      bindComparison (.join outer) found (.column "" (widthOf outer) type) = .ok comparison ∧
      (∀ row, row.length = widthOf outer → (eval comparison (row ++ [.null])).isTrue = false) ∧
      JoinedConditions width (widthOf outer) pairs conditions compared comparison := by
  have laterColumns : ∀ number column, columns[number]? = some column →
      bindColumnRef scope ⟨ScalarDecorrelation.keyColumn (0 + number), some derivedAlias⟩ =
        .ok (.column (ScalarDecorrelation.keyColumn (0 + number)) (width + (0 + number)) column.resultType) := by
    intro number column held
    rw [Nat.zero_add]
    exact keyColumns number column held
  obtain ⟨pairs, paired, isColumns, same⟩ := bind_keyConditions outerFound innerBound laterColumns conditionsRan
  obtain ⟨comparison, comparisonRan, sameValue, null⟩ := bindComparison_behind outerKept names comparison comparedRan
  have pairWithin : ∀ pair ∈ pairs, refersWithin (widthOf outer) (collectColumns pair.1) := by
    intro pair member
    obtain ⟨key, _, isPair⟩ := exists_of_mem_right paired member
    rw [← length_chainSchema]
    exact (scopeWithin_join outerKept).resolved _ _ isPair.outerBound
  have cut {row : Row} (isWidth : row.length = width) (more : Row) :
      (row ++ more).take (widthOf outer) = row.take (widthOf outer) :=
    List.take_append_of_le_length (isWidth ▸ wide)
  have lengths : pairs.length = columns.length := by rw [← isColumns, List.length_map]
  refine ⟨pairs, comparison, paired, isColumns, comparisonRan, null, ?_, ?_⟩
  · intro row key value more isWidth keyWidth
    rw [same _ key (keyWidth.trans lengths)]
    · refine List.map_congr_left (fun (pair, item) member => ?_)
      simp only
      rw [← eval_take (pairWithin pair (List.of_mem_zip member).1) (row ++ (key ++ [value]) ++ more),
        List.append_assoc, cut isWidth]
    · intro number item held
      rw [Nat.zero_add, ← isWidth]
      refine columnValue_group number value more ?_
      rw [List.getElem?_append_left (List.getElem?_eq_some_iff.mp held).1, held]
  · intro row key value more isWidth keyWidth
    have wideRow : widthOf outer ≤ (row ++ (key ++ [value]) ++ more).length := by
      simp only [List.length_append]
      omega
    rw [sameValue _ wideRow, List.append_assoc, cut isWidth, ← List.append_assoc, ← isWidth]
    have isValue : columnValue (row ++ (key ++ [value]) ++ more) (row.length + columns.length) = value :=
      columnValue_group _ value more (by rw [← lengths, ← keyWidth]; simp)
    rw [isValue]

variable {catalog : Catalog} {outer between after : List JoinSource} {outerScope : List String}
  {conjunct : SqlExpr} {found : ScalarSubqueryComparison} {decorrelated : DecorrelatedSubquery} {scope : Scope}

/-- What a conjunct with a correlated subquery says of the rows of the sources before it is what its join and its
conditions say, which do not see the columns of later sources. -/
theorem test_of_join {syntheticId : Nat} {on compared : Expression} {extras : List Expression}
    (recognised : decorrelate outerScope syntheticId conjunct = some (found, decorrelated))
    (keeps : KeepsValue catalog outer outerScope found.inner decorrelated.derivedSelect)
    (outerKept : ∀ source ∈ outer, keepsRight source.joinType = true)
    (aliases : ∀ table ∈ outerScope, ∃ source ∈ outer, source.tableAlias = table)
    (fresh : ∀ source ∈ outer ++ between, source.tableAlias ≠ subqueryAlias syntheticId)
    (isScope : scope = .join (outer ++ between ++ stepSource catalog (newStep decorrelated) :: after))
    (names : Agrees (bindColumnRef scope) (bindColumnRef (.join outer)) (references conjunct))
    (onRan : bind scope false decorrelated.joinCondition = .ok on)
    (comparedRan : bind scope false (comparedColumn found decorrelated) = .ok compared)
    (extrasRan : decorrelated.extraWhereConjuncts.mapM (bind scope false) = .ok extras) (tables : Tables) :
    ∃ test, scalarTest catalog tables outer conjunct = .ok test ∧
      ∀ (rightWidth : Nat) (left joined : List Row), (∀ row ∈ left, row.length = widthOf (outer ++ between) ∧
          RowFits (chainSchema outer) (row.take (widthOf outer))) →
        joined = joinRows (holdsOn on) .inner rightWidth left
          (rows tables (catalog.derivedPlan decorrelated.derivedSelect)) →
          (joined.filter (passesAll (compared :: extras))).map (List.take (widthOf outer)) =
            (left.map (List.take (widthOf outer))).filter test ∧
          ∀ row ∈ joined, ∀ more,
            passesAll (compared :: extras) (row ++ more) = passesAll (compared :: extras) row := by
  obtain ⟨matched, became⟩ := decorrelate_eq_some.mp recognised
  obtain ⟨comparison, isConjunct⟩ := matchScalarSubqueryComparison_eq_some matched
  obtain ⟨item, first, others, isItem, notDerived, aliased, isKeys, isDecorrelated⟩ := tryDecorrelate_eq_some became
  have isAlias : decorrelated.derivedAlias = subqueryAlias syntheticId := by rw [isDecorrelated]
  have isValueName : decorrelated.valueColumnName = valueColumn := by rw [isDecorrelated]
  have isSelect : decorrelated.derivedSelect = derivedSelect found.inner (first :: others)
      ((whereConjuncts found.inner).filter (fun conjunct => (correlationKey outerScope conjunct).isNone))
        item.expr := by
    rw [isDecorrelated]
  have areConditions : decorrelated.joinCondition :: decorrelated.extraWhereConjuncts =
      (first :: others).zipIdx.map (fun (key, number) => keyCondition (subqueryAlias syntheticId) key number) := by
    rw [isDecorrelated]
    rfl
  clear isDecorrelated
  obtain ⟨query, planned, grouped⟩ := keeps.planned
  rw [isSelect] at planned
  have single : ∀ conjunct ∈ (whereConjuncts found.inner).filter
      (fun conjunct => (correlationKey outerScope conjunct).isNone), collectAndConjuncts conjunct = [conjunct] := by
    intro conjunct member
    obtain ⟨condition, _, inCondition⟩ := List.mem_flatMap.mp (List.mem_of_mem_filter member)
    exact collectAndConjuncts_single inCondition
  obtain ⟨innerRows, columns, bounds, value, derived⟩ := exists_derivedFrom keeps.overTables notDerived
    (List.cons_ne_nil _ _) single planned grouped tables
  rw [← isSelect] at derived
  have columnsBound := columns_bound keeps derived notDerived aliased isKeys
  have inDerived (name : String) : bindColumnRef scope ⟨name, some (subqueryAlias syntheticId)⟩ =
      resolveColumn (catalog.derivedPlan decorrelated.derivedSelect).outputSchema (widthOf (outer ++ between))
        name := by
    have isSource : (stepSource catalog (newStep decorrelated)).tableAlias = subqueryAlias syntheticId := isAlias
    rw [isScope, ← isSource]
    exact bindColumnRef_fresh (isSource ▸ fresh)
  have outerFound : ∀ key ∈ first :: others, ∀ column, bindColumnRef scope key.1 = .ok column →
      bindColumnRef (.join outer) key.1 = .ok column := by
    intro key member column ran
    rw [← isKeys] at member
    obtain ⟨correlation, _, isKey⟩ := List.mem_filterMap.mp member
    obtain ⟨_, table, inScope, isTable⟩ := correlationKey_eq_some isKey
    rw [isScope, List.append_assoc] at ran
    have isReference : key.1 = ⟨key.1.name, some table⟩ := by rw [← isTable]
    rw [isReference] at ran ⊢
    exact bindColumnRef_append (aliases table inScope) ran
  have outerNames : Agrees (bindColumnRef scope) (bindColumnRef (.join outer)) (references found.outerExpr) := by
    intro reference member
    refine names reference ?_
    rw [isConjunct]
    split
    · exact List.mem_append_left _ member
    · exact List.mem_append_right _ member
  have isValue : bindColumnRef scope ⟨decorrelated.valueColumnName, some decorrelated.derivedAlias⟩ =
      .ok (.column valueColumn (widthOf (outer ++ between) + columns.length) value.resultType) := by
    rw [isAlias, isValueName, inDerived]
    exact resolveColumn_value derived _
  rw [bind_comparedColumn isValue] at comparedRan
  have wide : widthOf outer ≤ widthOf (outer ++ between) := by
    rw [widthOf_append]
    exact Nat.le_add_right _ _
  have conditionsRan : List.Forall₂ (fun conjunct bound => bind scope false conjunct = .ok bound)
      ((first :: others).zipIdx.map (fun (key, number) => keyCondition (subqueryAlias syntheticId) key number))
      (on :: extras) := by
    rw [← areConditions]
    exact .cons onRan (mapM_eq_ok.mp extrasRan)
  obtain ⟨pairs, behindRow, paired, isColumns, behindRan, null, conditions⟩ :=
    exists_joinedConditions outerKept wide outerFound outerNames columnsBound
      (fun number column held => (inDerived _).trans (resolveColumn_key derived held _))
      conditionsRan comparison comparedRan
  obtain ⟨scalar, scalarRan, isScalar⟩ :=
    scalarValue_agrees keeps derived isItem notDerived aliased isKeys paired isColumns
  refine ⟨fun row => (eval behindRow (row ++ [scalar row])).isTrue, ?_, ?_⟩
  · unfold scalarTest
    rw [matched]
    exact bind_eq_ok.mpr ⟨_, scalarRan, bind_eq_ok.mpr ⟨_, behindRan, rfl⟩⟩
  intro rightWidth left joined leftFits isJoined
  rw [derived.rows] at isJoined
  rw [isJoined]
  constructor
  · simp only [isScalar]
    refine filter_joinRows conditions (fun row member => (leftFits row member).1) isColumns rightWidth ?_ ?_ wide
    · intro row member first firstIn second secondIn
      exact key_unique keeps derived isKeys outerKept (leftFits row member).2 paired isColumns
        (List.mem_of_mem_filter firstIn) (List.mem_of_mem_filter secondIn)
    · intro row member
      rw [(value_bound keeps derived isItem notDerived aliased).2.2.2]
      exact null _ (length_chainSchema outer ▸ (leftFits row member).2.length_eq.symm)
  · intro row member more
    obtain ⟨pair, inJoin, rfl⟩ := List.mem_map.mp member
    obtain ⟨inLeft, inRight, _⟩ := mem_innerJoin.mp inJoin
    obtain ⟨group, isGroup, isRight⟩ := List.mem_map.mp inRight
    obtain ⟨own, _, isKey⟩ := List.mem_map.mp (mem_groupRows.mp isGroup).1
    rw [← isRight, groupRow]
    refine conditions.passesAll_append (leftFits _ inLeft).1 ?_ _ more
    rw [← isKey, keyOf, List.length_map, ← isColumns, List.length_map]

end Join

/-! ## The conjuncts of a `WHERE` clause -/

section Steps

variable {catalog : Catalog} {tables : Tables} {scope : Scope} {outer between : List JoinSource}
  {outerScope : List String}

/-- A conjunct that can be bound as it is has no subquery. -/
theorem scalarTest_of_bind {conjunct : SqlExpr} {bound : Expression}
    (names : Agrees (bindColumnRef scope) (bindColumnRef (.join outer)) (references conjunct))
    (ran : bind scope false conjunct = .ok bound) :
    scalarTest catalog tables outer conjunct = .ok (fun row => (eval bound row).isTrue) := by
  unfold scalarTest
  rw [matchScalarSubqueryComparison_of_bind ran]
  exact bind_eq_ok.mpr ⟨bound, bindWith_agrees false _ names bound ran, rfl⟩

theorem joinRows_filter_left {on : Row → Row → Bool} {keep : Row → Bool} {left right : List Row}
    (unseen : ∀ row ∈ left, ∀ more, keep (row ++ more) = keep row) (width : Nat) :
    joinRows on .inner width (left.filter keep) right = (joinRows on .inner width left right).filter keep := by
  rw [joinRows, joinRows, ← filter_innerJoin_left, List.filter_map]
  exact congrArg _ (List.filter_congr (fun pair member => (unseen pair.1 (mem_innerJoin.mp member).1 pair.2).symm))

/-- A selection that does not see the columns of later sources may be made before they are joined. -/
theorem writtenJoins_filter {keep : Row → Bool} {left joined : List Row}
    {steps : List (AstJoinStep AstSelectStatement × JoinInput)} (inner : ∀ step ∈ steps, step.1.joinType = .inner)
    (unseen : ∀ row ∈ left, ∀ more, keep (row ++ more) = keep row)
    (ran : writtenJoins tables scope left steps = .ok joined) :
    writtenJoins tables scope (left.filter keep) steps = .ok (joined.filter keep) := by
  induction steps generalizing left with
  | nil =>
    rw [← pure_eq_ok.mp ran]
    rfl
  | cons step steps hypothesis =>
    obtain ⟨isInner, othersInner⟩ := List.forall_mem_cons.mp inner
    rw [writtenJoins, bind_eq_ok] at ran ⊢
    obtain ⟨condition, conditionRan, ran⟩ := ran
    rw [isInner] at ran ⊢
    refine ⟨condition, conditionRan, ?_⟩
    rw [joinRows_filter_left unseen]
    refine hypothesis othersInner (fun row member more => ?_) ran
    obtain ⟨pair, inJoin, rfl⟩ := List.mem_map.mp member
    have isLeft := (mem_innerJoin.mp inJoin).1
    rw [List.append_assoc, unseen _ isLeft, unseen _ isLeft]

theorem joinRows_fits {on : Row → Row → Bool} {source : JoinSource} {width : Nat} {left right : List Row}
    (leftFits : ∀ row ∈ left, row.length = widthOf (outer ++ between) ∧
      RowFits (chainSchema outer) (row.take (widthOf outer)))
    (rightFits : ∀ row ∈ right, row.length = source.schema.length) (keeps : keepsRight source.joinType = true) :
    ∀ row ∈ joinRows on .inner width left right, row.length = widthOf (outer ++ (between ++ [source])) ∧
      RowFits (chainSchema outer) (row.take (widthOf outer)) := by
  intro row member
  obtain ⟨pair, inJoin, rfl⟩ := List.mem_map.mp member
  obtain ⟨inLeft, inRight, _⟩ := mem_innerJoin.mp inJoin
  obtain ⟨isWidth, rowFits⟩ := leftFits _ inLeft
  constructor
  · have isSpan : widthOf [source] = source.schema.length := by
      rw [widthOf, List.length_singleton, offsetOf_succ, span_of_keeps keeps]
      rfl
    rw [← List.append_assoc, widthOf_append, List.length_append, isWidth, rightFits _ inRight, isSpan]
  · rw [List.take_append_of_le_length]
    · exact rowFits
    · rw [isWidth, widthOf_append]
      exact Nat.le_add_right _ _

theorem alias_of_decorrelate {number : Nat} {conjunct : SqlExpr} {found : ScalarSubqueryComparison}
    {decorrelated : DecorrelatedSubquery}
    (recognised : decorrelate outerScope number conjunct = some (found, decorrelated)) :
    decorrelated.derivedAlias = subqueryAlias number := by
  obtain ⟨_, _, _, _, _, _, _, rfl⟩ := tryDecorrelate_eq_some (decorrelate_eq_some.mp recognised).2
  rfl

theorem newSteps_inner (number : Nat) (conjuncts : List SqlExpr) :
    ∀ step ∈ (rewriteConjuncts outerScope number conjuncts).newSteps, step.joinType = .inner := by
  induction conjuncts generalizing number with
  | nil => exact fun step member => by cases member
  | cons conjunct conjuncts hypothesis =>
    rw [rewriteConjuncts]
    split
    · exact hypothesis number
    · exact List.forall_mem_cons.mpr ⟨rfl, hypothesis (number + 1)⟩

/-- The joins of a `WHERE` clause and the conditions behind them keep the rows of the sources of which all conjuncts
are `TRUE`. -/
theorem tests_of_steps {conjuncts : List SqlExpr} {number : Nat} {left joined : List Row}
    {bounds extras : List Expression}
    (keeps : ∀ conjunct ∈ conjuncts, ∀ found decorrelated,
      decorrelate outerScope 0 conjunct = some (found, decorrelated) →
        KeepsValue catalog outer outerScope found.inner decorrelated.derivedSelect)
    (outerKept : ∀ source ∈ outer, keepsRight source.joinType = true)
    (aliases : ∀ table ∈ outerScope, ∃ source ∈ outer, source.tableAlias = table)
    (fresh : ∀ source ∈ outer ++ between, ∀ later, number ≤ later → source.tableAlias ≠ subqueryAlias later)
    (isScope : scope = .join (outer ++ between ++
      (rewriteConjuncts outerScope number conjuncts).newSteps.map (stepSource catalog)))
    (names : Agrees (bindColumnRef scope) (bindColumnRef (.join outer)) (conjuncts.flatMap references))
    (leftFits : ∀ row ∈ left, row.length = widthOf (outer ++ between) ∧
      RowFits (chainSchema outer) (row.take (widthOf outer)))
    (joinsRan : writtenJoins tables scope left ((rewriteConjuncts outerScope number conjuncts).newSteps.map
      (fun step => (step, catalog.joined step))) = .ok joined)
    (boundsRan : (rewriteConjuncts outerScope number conjuncts).conjuncts.mapM (bind scope false) = .ok bounds)
    (extrasRan : (rewriteConjuncts outerScope number conjuncts).extraConjuncts.mapM (bind scope false) = .ok extras) :
    ∃ tests, conjuncts.mapM (scalarTest catalog tables outer) = .ok tests ∧
      (joined.filter (passesAll (bounds ++ extras))).map (List.take (widthOf outer)) =
        (left.map (List.take (widthOf outer))).filter (fun row => tests.all (fun test => test row)) := by
  induction conjuncts generalizing number between left joined bounds extras with
  | nil =>
    rw [← pure_eq_ok.mp joinsRan, ← pure_eq_ok.mp boundsRan, ← pure_eq_ok.mp extrasRan]
    refine ⟨[], rfl, ?_⟩
    simp
  | cons conjunct conjuncts hypothesis =>
    obtain ⟨keepsFirst, keepsOthers⟩ := List.forall_mem_cons.mp keeps
    have firstNames : Agrees (bindColumnRef scope) (bindColumnRef (.join outer)) (references conjunct) :=
      fun reference member => names reference (List.mem_append_left _ member)
    have otherNames : Agrees (bindColumnRef scope) (bindColumnRef (.join outer)) (conjuncts.flatMap references) :=
      fun reference member => names reference (List.mem_append_right _ member)
    cases recognised : decorrelate outerScope number conjunct with
    | none =>
      simp only [rewriteConjuncts, recognised] at isScope joinsRan boundsRan extrasRan
      cases mapM_eq_ok.mp boundsRan with
      | @cons _ bound _ bounds boundRan othersRan =>
        obtain ⟨tests, testsRan, same⟩ :=
          hypothesis keepsOthers fresh isScope otherNames leftFits joinsRan (mapM_eq_ok.mpr othersRan) extrasRan
        have within : refersWithin (widthOf outer) (collectColumns bound) := by
          rw [← length_chainSchema]
          exact bind_within (scopeWithin_join outerKept) (bindWith_agrees false _ firstNames bound boundRan)
        have test := @scalarTest_of_bind catalog tables _ _ _ _ firstNames boundRan
        refine ⟨_ :: tests, mapM_eq_ok.mpr (.cons test (mapM_eq_ok.mp testsRan)), ?_⟩
        have split : joined.filter (passesAll (bound :: bounds ++ extras)) =
            (joined.filter (passesAll (bounds ++ extras))).filter
              (fun row => (eval bound (row.take (widthOf outer))).isTrue) := by
          rw [List.filter_filter]
          exact List.filter_congr (fun row _ => by rw [eval_take within]; rfl)
        rw [split]
        simp only [List.all_cons]
        rw [← List.filter_filter, ← same, List.filter_map]
        rfl
    | some pair =>
      obtain ⟨found, decorrelated⟩ := pair
      simp only [rewriteConjuncts, recognised] at isScope joinsRan boundsRan extrasRan
      rw [List.map_cons] at isScope joinsRan
      rw [writtenJoins, bind_eq_ok] at joinsRan
      obtain ⟨on, onRan, joinsRan⟩ := joinsRan
      obtain ⟨firstExtras, otherExtras, rfl, firstRan, otherRan⟩ := forall₂_append_left (mapM_eq_ok.mp extrasRan)
      have keptValue : KeepsValue catalog outer outerScope found.inner decorrelated.derivedSelect := by
        obtain ⟨matched, became⟩ := decorrelate_eq_some.mp recognised
        obtain ⟨renumbered, isRenumbered, same⟩ := tryDecorrelate_renumbered became 0
        rw [← same]
        exact keepsFirst found renumbered (decorrelate_eq_some.mpr ⟨matched, isRenumbered⟩)
      cases mapM_eq_ok.mp boundsRan with
      | @cons _ compared _ bounds comparedRan othersRan =>
        obtain ⟨test, testRan, same⟩ := test_of_join recognised keptValue outerKept aliases
          (fun source member => fresh source member number le_rfl) isScope firstNames onRan comparedRan
          (mapM_eq_ok.mpr firstRan) tables
        generalize isNext : joinRows (holdsOn on) _ _ left _ = next at joinsRan
        obtain ⟨selected, unseen⟩ := same _ left next leftFits isNext.symm
        have innerSteps : ∀ step ∈ (rewriteConjuncts outerScope (number + 1) conjuncts).newSteps.map
            (fun step => (step, catalog.joined step)), step.1.joinType = .inner := by
          intro step member
          obtain ⟨newStep, isNew, rfl⟩ := List.mem_map.mp member
          exact newSteps_inner _ _ newStep isNew
        have filteredRan := writtenJoins_filter innerSteps unseen joinsRan
        have nextFits : ∀ row ∈ next.filter (passesAll (compared :: firstExtras)),
            row.length = widthOf (outer ++ (between ++ [stepSource catalog (newStep decorrelated)])) ∧
              RowFits (chainSchema outer) (row.take (widthOf outer)) := by
          intro row member
          rw [← isNext] at member
          exact joinRows_fits leftFits (rows_length tables _) rfl row (List.mem_of_mem_filter member)
        have laterFresh : ∀ source ∈ outer ++ (between ++ [stepSource catalog (newStep decorrelated)]),
            ∀ later, number + 1 ≤ later → source.tableAlias ≠ subqueryAlias later := by
          intro source member later isLater
          rw [← List.append_assoc] at member
          rcases List.mem_append.mp member with isBefore | isNew
          · exact fresh source isBefore later (Nat.le_of_succ_le isLater)
          · rw [List.mem_singleton.mp isNew]
            intro same
            have isAlias : decorrelated.derivedAlias = subqueryAlias later := same
            rw [alias_of_decorrelate recognised] at isAlias
            exact absurd (subqueryAlias_injective isAlias) (Nat.ne_of_lt isLater)
        have laterScope : scope = .join (outer ++ (between ++ [stepSource catalog (newStep decorrelated)]) ++
            (rewriteConjuncts outerScope (number + 1) conjuncts).newSteps.map (stepSource catalog)) := by
          rw [isScope]
          simp
        obtain ⟨tests, testsRan, sameOthers⟩ := hypothesis keepsOthers laterFresh laterScope otherNames nextFits
          filteredRan (mapM_eq_ok.mpr othersRan) (mapM_eq_ok.mpr otherRan)
        refine ⟨test :: tests, mapM_eq_ok.mpr (.cons testRan (mapM_eq_ok.mp testsRan)), ?_⟩
        have split : joined.filter (passesAll (compared :: bounds ++ (firstExtras ++ otherExtras))) =
            (joined.filter (passesAll (compared :: firstExtras))).filter (passesAll (bounds ++ otherExtras)) := by
          rw [List.filter_filter]
          refine List.filter_congr (fun row _ => ?_)
          simp only [passesAll, List.cons_append, List.all_cons, List.all_append]
          ac_rfl
        simp only [List.all_cons]
        rw [split, sameOthers, selected, List.filter_filter]
        exact List.filter_congr (fun row _ => Bool.and_comm _ _)

end Steps

/-! ## Statements -/

theorem collectAndConjuncts_comparison {op : BinaryOperator} (comparison : isComparison op = true)
    (left right : SqlExpr) : collectAndConjuncts (.binary op left right) = [.binary op left right] := by
  cases op <;> first | rfl | cases comparison

/-- What conjuncts become are conjuncts. -/
theorem collectAndConjuncts_rewritten {outerScope : List String} {number : Nat} {conjuncts : List SqlExpr}
    (single : ∀ conjunct ∈ conjuncts, collectAndConjuncts conjunct = [conjunct]) :
    ∀ conjunct ∈ (rewriteConjuncts outerScope number conjuncts).conjuncts ++
      (rewriteConjuncts outerScope number conjuncts).extraConjuncts, collectAndConjuncts conjunct = [conjunct] := by
  induction conjuncts generalizing number with
  | nil => exact fun conjunct member => by cases member
  | cons conjunct conjuncts hypothesis =>
    obtain ⟨firstSingle, othersSingle⟩ := List.forall_mem_cons.mp single
    rw [rewriteConjuncts]
    split
    · exact List.forall_mem_cons.mpr ⟨firstSingle, hypothesis othersSingle⟩
    · rename_i found decorrelated recognised
      obtain ⟨matched, became⟩ := decorrelate_eq_some.mp recognised
      obtain ⟨comparison, _⟩ := matchScalarSubqueryComparison_eq_some matched
      obtain ⟨_, _, rest, _, _, _, _, isDecorrelated⟩ := tryDecorrelate_eq_some became
      intro conjunct member
      simp only [List.cons_append, List.mem_cons, List.mem_append] at member
      rcases member with rfl | inOthers | inExtras | inOtherExtras
      · unfold comparedColumn
        simp only
        split
        · exact collectAndConjuncts_comparison comparison _ _
        · exact collectAndConjuncts_comparison comparison _ _
      · exact hypothesis othersSingle conjunct (List.mem_append_left _ inOthers)
      · rw [isDecorrelated] at inExtras
        obtain ⟨key, _, rfl⟩ := List.mem_map.mp inExtras
        rfl
      · exact hypothesis othersSingle conjunct (List.mem_append_right _ inOtherExtras)

theorem hasCorrelated_of_newSteps {outerScope : List String} {number : Nat} {conjuncts : List SqlExpr}
    (someStep : (rewriteConjuncts outerScope number conjuncts).newSteps ≠ []) :
    conjuncts.any (fun conjunct => (decorrelate outerScope 0 conjunct).isSome) = true := by
  induction conjuncts generalizing number with
  | nil => exact absurd rfl someStep
  | cons conjunct conjuncts hypothesis =>
    rw [List.any_cons, Bool.or_eq_true]
    cases recognised : decorrelate outerScope number conjunct with
    | none =>
      rw [rewriteConjuncts, recognised] at someStep
      exact .inr (hypothesis someStep)
    | some pair =>
      obtain ⟨matched, became⟩ := decorrelate_eq_some.mp recognised
      obtain ⟨renumbered, isRenumbered, _⟩ := tryDecorrelate_renumbered became 0
      rw [decorrelate_eq_some.mpr ⟨matched, isRenumbered⟩]
      exact .inl rfl

/-- What a statement becomes: itself, or one with a join for each correlated subquery behind its sources. -/
theorem rewriteCorrelatedScalarSubqueries_cases (stmt : AstSelectStatement) :
    rewriteCorrelatedScalarSubqueries stmt = stmt ∨
      stmt.fromSubquery = none ∧ hasCorrelated stmt = true ∧ ∃ clause, clause = stmt.join.getD ⟨stmt.source, []⟩ ∧
        ∃ rewritten, rewritten = rewriteConjuncts (outerAliases stmt) 0 (whereConjuncts stmt) ∧
        rewriteCorrelatedScalarSubqueries stmt =
          { stmt with
            join := some { clause with steps := clause.steps ++ rewritten.newSteps }
            condition := rebuildAnd (rewritten.conjuncts ++ rewritten.extraConjuncts) } := by
  unfold rewriteCorrelatedScalarSubqueries
  split
  · exact .inl rfl
  · rename_i condition isCondition
    have conjuncts : whereConjuncts stmt = collectAndConjuncts condition := by
      rw [whereConjuncts, isCondition, Option.toList_some, List.flatMap_singleton]
    split
    · exact .inl rfl
    · rename_i notDerived
      split
      · exact .inl rfl
      · simp only
        split
        · exact .inl rfl
        · rename_i someStep
          rw [← conjuncts] at someStep ⊢
          have correlated : hasCorrelated stmt = true := hasCorrelated_of_newSteps (by simpa using someStep)
          exact .inr ⟨by simpa using notDerived, correlated, _, rfl, _, rfl, rfl⟩

section Statements

variable {catalog : Catalog} {tables : Tables} {stmt : AstSelectStatement}

/-- The aliases of a statement's sources are among those of the sources in which its names are looked up. -/
theorem exists_outerAlias (notDerived : stmt.fromSubquery = none) :
    ∀ table ∈ outerAliases stmt, ∃ source ∈ sourcesOf catalog stmt, source.tableAlias = table := by
  intro table member
  unfold outerAliases at member
  unfold sourcesOf
  cases isJoin : stmt.join with
  | some clause =>
    simp only [isJoin] at member ⊢
    rw [joinSources_inputs]
    rcases List.mem_append.mp member with isFirst | isStep
    · refine ⟨_, List.mem_cons_self .., ?_⟩
      rw [tableSource, Option.mem_toList.mp isFirst]
      rfl
    · obtain ⟨step, inSteps, isAlias⟩ := List.mem_flatMap.mp isStep
      refine ⟨_, List.mem_cons_of_mem _ (List.mem_map_of_mem inSteps), ?_⟩
      rw [Option.mem_toList.mp isAlias]
      rfl
  | none =>
    simp only [isJoin, notDerived] at member ⊢
    refine ⟨_, List.mem_singleton_self _, ?_⟩
    rw [Option.mem_toList.mp member]
    rfl

/-- What is planned for a statement is what its clauses make of the rows that pass the tests. -/
theorem scalarQuery_of_clauses {scope : Scope} {query : BoundQuery} {groupReferences : List Reference}
    {keys : List GroupKey} {left : List Row} {tests : List (Row → Bool)}
    (sourced : sourceRows catalog tables stmt = .ok left)
    (tested : (whereConjuncts stmt).mapM (scalarTest catalog tables (sourcesOf catalog stmt)) = .ok tests)
    (narrows : Narrows scope (.join (sourcesOf catalog stmt)) (outerReferences stmt))
    (stars : ∀ item ∈ stmt.selectList, isStar item.expr = true →
      starItems scope = starItems (.join (sourcesOf catalog stmt)))
    (clauses : ClausesBound { stmt with condition := none } scope (isAggregateStatement stmt)
      { query with condition := none } groupReferences keys) :
    scalarQuery catalog tables stmt = .ok (query.outputSchema,
      queryRows { query with condition := none } (left.filter (fun row => tests.all (fun test => test row)))) ∧
    ClausesBound { stmt with condition := none } (.join (sourcesOf catalog stmt)) (isAggregateStatement stmt)
      { query with condition := none } groupReferences keys := by
  have fewer : outerReferences { stmt with condition := none } ⊆ outerReferences stmt := by
    intro reference member
    simp only [outerReferences, whereConjuncts, Option.toList_none, List.flatMap_nil, List.append_nil,
      List.mem_append] at member ⊢
    tauto
  have bound := clausesBound_narrows (narrows.subset fewer) stars clauses
  refine ⟨?_, bound⟩
  unfold scalarQuery
  exact bind_eq_ok.mpr ⟨_, sourced, bind_eq_ok.mpr ⟨_, tested, bind_eq_ok.mpr ⟨_, bindQueryCommon_of_clauses bound,
    rfl⟩⟩⟩

theorem tests_of_bounds {scope : Scope} {outer : List JoinSource} {conjuncts : List SqlExpr} {bounds : List Expression}
    (names : Agrees (bindColumnRef scope) (bindColumnRef (.join outer)) (conjuncts.flatMap references))
    (ran : conjuncts.mapM (bind scope false) = .ok bounds) :
    conjuncts.mapM (scalarTest catalog tables outer) = .ok (bounds.map (fun bound row => (eval bound row).isTrue)) := by
  rw [mapM_eq_ok] at ran ⊢
  induction ran with
  | nil => exact .nil
  | cons boundRan _ hypothesis =>
    exact .cons (scalarTest_of_bind (fun reference member => names reference (List.mem_append_left _ member)) boundRan)
      (hypothesis (fun reference member => names reference (List.mem_append_right _ member)))

/-- Without a join for a subquery a statement has none, since every conjunct has been bound. -/
theorem scalarQuery_unchanged {query : BoundQuery} {plan : LogicalPlan}
    (planned : planStatement catalog stmt = .ok (query, plan)) :
    scalarQuery catalog tables stmt = .ok (query.outputSchema, rows tables plan) := by
  obtain ⟨joined, groupReferences, keys, sourced, clauses, isRows⟩ := planStatement_eq_ok planned tables
  obtain ⟨bounds, boundsRan, filtered⟩ := filterRowsIf_conjuncts clauses.condition
  obtain ⟨narrows, stars⟩ := narrows_planScope catalog stmt (outerReferences stmt)
  have tested : (whereConjuncts stmt).mapM (scalarTest catalog tables (sourcesOf catalog stmt)) = _ :=
    tests_of_bounds (narrows.subset (conjunctReferences_subset stmt)).names boundsRan
  have others : ClausesBound { stmt with condition := none } (planScope catalog stmt) (isAggregateStatement stmt)
      { query with condition := none } groupReferences keys := { clauses with condition := rfl }
  obtain ⟨ran, _⟩ := scalarQuery_of_clauses sourced tested narrows (fun _ _ _ => stars) others
  rw [ran, isRows]
  have kept : joined.filter (fun row =>
      (bounds.map (fun bound row => (eval bound row).isTrue)).all (fun test => test row)) =
        filterRowsIf query.condition joined := by
    rw [filtered]
    exact List.filter_congr (fun row _ => by rw [List.all_map]; rfl)
  rw [kept]
  rfl

theorem sourcesOf_steps {clause : AstJoinClause AstSelectStatement} (notDerived : stmt.fromSubquery = none)
    (isClause : clause = stmt.join.getD ⟨stmt.source, []⟩) (more : List (AstJoinStep AstSelectStatement))
    (condition : Option SqlExpr) :
    sourcesOf catalog { stmt with join := some { clause with steps := clause.steps ++ more }, condition } =
      sourcesOf catalog stmt ++ more.map (stepSource catalog) := by
  have rewritten : sourcesOf catalog
      { stmt with join := some { clause with steps := clause.steps ++ more }, condition } = _ :=
    joinSources_inputs { clause with steps := clause.steps ++ more }
  rw [rewritten, sourcesOf_clause notDerived isClause, joinSources_inputs, List.map_append]
  rfl

theorem scalarQuery_rewritten {clause : AstJoinClause AstSelectStatement} {rewritten : Rewritten}
    {query : BoundQuery} {plan : LogicalPlan} (notDerived : stmt.fromSubquery = none)
    (isClause : clause = stmt.join.getD ⟨stmt.source, []⟩)
    (areConjuncts : rewritten = rewriteConjuncts (outerAliases stmt) 0 (whereConjuncts stmt))
    (isRewritten : rewriteCorrelatedScalarSubqueries stmt =
      { stmt with
        join := some { clause with steps := clause.steps ++ rewritten.newSteps }
        condition := rebuildAnd (rewritten.conjuncts ++ rewritten.extraConjuncts) })
    (planned : planStatement catalog (rewriteCorrelatedScalarSubqueries stmt) = .ok (query, plan))
    (kept : KeepsScalars catalog stmt) :
    scalarQuery catalog tables stmt = .ok (query.outputSchema, rows tables plan) := by
  have isSources := @sourcesOf_steps catalog stmt clause notDerived isClause rewritten.newSteps
    (rebuildAnd (rewritten.conjuncts ++ rewritten.extraConjuncts))
  have sameNames := sameColumns_agrees kept.names
  rw [isRewritten] at planned sameNames
  rw [isSources] at sameNames
  obtain ⟨joined, groupReferences, keys, sourced, clauses, isRows⟩ := planStatement_eq_ok planned tables
  change ClausesBound _ (.join (sourcesOf catalog _)) _ _ _ _ at clauses
  change writtenJoins tables (.join (sourcesOf catalog _)) _ (List.map _ (clause.steps ++ _)) = .ok joined at sourced
  rw [isSources] at clauses
  rw [isSources, List.map_append, writtenJoins_append, bind_eq_ok] at sourced
  obtain ⟨left, leftRan, joinsRan⟩ := sourced
  have narrows : Narrows (.join (sourcesOf catalog stmt ++ rewritten.newSteps.map (stepSource catalog)))
      (.join (sourcesOf catalog stmt)) (outerReferences stmt) := ⟨sameNames, fun _ => absent_prefix⟩
  have outerRan : sourceRows catalog tables stmt = .ok left := by
    rw [sourceRows_clause notDerived isClause]
    refine writtenJoins_narrows (narrows.subset ?_) leftRan
    rw [List.flatMap_map]
    exact stepReferences_subset isClause
  have leftFits : ∀ row ∈ left, RowFits (chainSchema (sourcesOf catalog stmt)) row :=
    rowFits_sourceRows kept.overTables outerRan
  have leftWidth : ∀ row ∈ left, row.length = widthOf (sourcesOf catalog stmt) := fun row member =>
    length_chainSchema (sourcesOf catalog stmt) ▸ (leftFits row member).length_eq.symm
  have whole : ∀ row ∈ left, row.take (widthOf (sourcesOf catalog stmt)) = row := fun row member =>
    List.take_of_length_le (Nat.le_of_eq (leftWidth row member))
  obtain ⟨allBounds, boundsRan, filtered⟩ := filterRowsIf_conjuncts clauses.condition
  have remaining : (rebuildAnd (rewritten.conjuncts ++ rewritten.extraConjuncts)).toList.flatMap collectAndConjuncts =
      rewritten.conjuncts ++ rewritten.extraConjuncts := by
    rw [areConjuncts]
    refine collectAndConjuncts_rebuildAnd (collectAndConjuncts_rewritten (fun conjunct member => ?_))
    obtain ⟨condition, _, isConjunct⟩ := List.mem_flatMap.mp member
    exact collectAndConjuncts_single isConjunct
  rw [whereConjuncts, remaining] at boundsRan
  obtain ⟨bounds, extras, rfl, conjunctsRan, extrasRan⟩ := forall₂_append_left (mapM_eq_ok.mp boundsRan)
  have isWidth : widthOf (sourcesOf catalog stmt ++ []) = widthOf (sourcesOf catalog stmt) := by rw [List.append_nil]
  rw [areConjuncts] at narrows joinsRan conjunctsRan extrasRan
  obtain ⟨tests, testsRan, same⟩ := @tests_of_steps catalog tables _ (sourcesOf catalog stmt) [] (outerAliases stmt)
    (whereConjuncts stmt) 0 left joined bounds extras kept.subqueries kept.outerKept (exists_outerAlias notDerived)
    (fun source member later _ => kept.freshAliases source (by simpa using member) later) (by rw [List.append_nil])
    (narrows.subset (conjunctReferences_subset stmt)).names
    (fun row member => ⟨(leftWidth row member).trans isWidth.symm, by rw [whole row member]; exact leftFits row member⟩)
    joinsRan (mapM_eq_ok.mpr conjunctsRan) (mapM_eq_ok.mpr extrasRan)
  have others : ClausesBound { stmt with condition := none }
      (.join (sourcesOf catalog stmt ++ rewritten.newSteps.map (stepSource catalog))) (isAggregateStatement stmt)
      { query with condition := none } groupReferences keys := { clauses with condition := rfl }
  rw [← areConjuncts] at narrows
  obtain ⟨ran, bound⟩ := scalarQuery_of_clauses outerRan testsRan narrows
    (fun item member star => by rw [kept.noStar item member] at star; cases star) others
  have reads : ReadsSource (widthOf (sourcesOf catalog stmt)) { query with condition := none } := by
    rw [← length_chainSchema]
    exact readsSource_of_clauses (scopeWithin_join kept.outerKept) bound
  have allLeft : left.map (List.take (widthOf (sourcesOf catalog stmt))) = left :=
    (List.map_congr_left whole).trans (List.map_id' left)
  have sameRows : queryRows { query with condition := none } (filterRowsIf query.condition joined) =
      queryRows query joined := rfl
  rw [ran, isRows, ← sameRows, filtered, ← queryRows_take reads (joined.filter _), same, allLeft]

end Statements

/-- A catalog of the two tables in which derived tables are planned. -/
def planningCatalog : Catalog where
  schema := ordersCatalog.schema
  partitionColumns := ordersCatalog.partitionColumns
  derivedPlan derived :=
    ((planStatement ordersCatalog derived).toOption.map Prod.snd).getD (ordersCatalog.derivedPlan derived)

/-- `SELECT SUM(b.w) FROM b WHERE a.k = b.k AND b.w > 0` -/
def summedLines : AstSelectStatement :=
  linesQuery [⟨.aggregate .sum (.columnRef "w" (some "b")), none⟩] "b"
    (.binary .and (onKey "b") (.binary .greater (.columnRef "w" (some "b")) (.literal (.integer 0))))

/-- `a.v < (SELECT SUM(b.w) FROM b WHERE a.k = b.k AND b.w > 0)` -/
def belowSum : SqlExpr :=
  .binary .less (.columnRef "v" (some "a")) (.subquery summedLines)

theorem keepsScalars_belowSum : KeepsScalars planningCatalog (ordersQuery belowSum) where
  overTables := rfl
  outerKept source member := by
    obtain rfl := List.mem_singleton.mp member
    rfl
  noStar item member := by
    obtain rfl := List.mem_singleton.mp member
    rfl
  freshAliases source member number same := by
    obtain rfl := List.mem_singleton.mp member
    have sameText := congrArg (fun text => text.toList.head?) same
    simp only [subqueryAlias, String.toList_append] at sameText
    cases sameText
  names := by decide +kernel
  subqueries conjunct member found decorrelated recognised := by
    obtain rfl := List.mem_singleton.mp member
    obtain ⟨rfl, rfl⟩ := Prod.mk.inj (Option.some.inj recognised)
    exact {
      overTables := rfl
      innerKept := fun source member => by
        obtain rfl := List.mem_singleton.mp member
        rfl
      unshadowed := fun source member => by
        obtain rfl := List.mem_singleton.mp member
        decide
      ownQualifiers := fun _ => by decide
      exactKeys := fun conjunct member key isKey column found => by
        rcases List.mem_cons.mp member with rfl | isOther
        · obtain rfl := Option.some.inj isKey
          rcases found with isOuter | isInner
          · rw [← Except.ok.inj isOuter]
            rfl
          · rw [← Except.ok.inj isInner]
            rfl
        · obtain rfl := List.mem_singleton.mp isOther
          cases isKey
      emptyValue := ⟨_, _, rfl, rfl, rfl, rfl⟩
      planned := ⟨_, rfl, by decide +kernel, by decide +kernel, by decide +kernel⟩ }

/-- One row of `a`, with `k = 4` and `v = 0`, and none of `b`. -/
def unmatchedTables : Tables :=
  .ofContents [⟨["a.parquet"], ordersInput.schema, [[.int 4, .int 0]], by decide⟩]

/-- A count over no rows is `0`, but the row without a partner is not in the join. -/
example :
    let counted := ordersQuery (.binary .equal (.columnRef "v" (some "a"))
      (.subquery (linesQuery [⟨.countStar, none⟩] "b" (onKey "b"))))
    (scalarQuery planningCatalog unmatchedTables counted).toOption.map Prod.snd = some [[.int 0]] ∧
      (planStatement planningCatalog (rewriteCorrelatedScalarSubqueries counted)).toOption.map
        (fun planned => rows unmatchedTables planned.2) = some [] := by
  decide +kernel

end KernelLake.ScalarDecorrelationProofs
