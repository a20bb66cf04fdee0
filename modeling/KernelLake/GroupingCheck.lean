import KernelLake.BindingTallies
import KernelLake.KeyReading

/-!
What the grouping check covers.

The binder checks the select items of an aggregate query and its `HAVING` against the grouping keys. A `*`
is not checked, a name in `GROUP BY` may stand for a select item with an aggregate, and a query whose
only aggregate stands in its `ORDER BY` is no aggregate query to the binder. Apart from these three, every
column of an accepted query stands inside an aggregate or inside a grouping key.
-/

namespace KernelLake.GroupingCheck

open KernelLake.Types KernelLake.Expressions KernelLake.ExpressionText KernelLake.LogicalPlans
open KernelLake.SqlAst KernelLake.Binder KernelLake.BindingProofs KernelLake.QueryBinding
open KernelLake.QueryBindingProofs KernelLake.JoinBinding KernelLake.AggregatePlanning
open KernelLake.BindingTallies KernelLake.KeyTrees KernelLake.KeyReading
open KernelLake.Library.Results KernelLake.Library.Texts

/-! ## Grouped expressions -/

mutual

/-- Whether every column of an expression stands inside an aggregate call or inside a part that is a grouping
key. The name of a column is for display, so parts are compared without it. -/
def grouped (keys : List Expression) (expression : Expression) : Bool :=
  keys.any (fun key => withoutNames key = withoutNames expression) ||
    match expression with
    | .column .. => false
    | .literal .. => true
    | .binary _ left right _ => grouped keys left && grouped keys right
    | .unary _ operand _ => grouped keys operand
    | .cast operand _ => grouped keys operand
    | .extract _ operand _ => grouped keys operand
    | .substring operand _ _ _ => grouped keys operand
    | .between value lower upper => grouped keys value && grouped keys lower && grouped keys upper
    | .like value _ _ => grouped keys value
    | .caseWhen branches _ => branchesGrouped keys branches
    | .aggregate .. => true
    | .countStar _ => true

def branchesGrouped (keys : List Expression) (branches : CaseBranches) : Bool :=
  match branches with
  | .done => true
  | .otherwise result => grouped keys result
  | .when condition result rest =>
    grouped keys condition && grouped keys result && branchesGrouped keys rest

end

/-- The columns of a query are grouped, and no grouping key has an aggregate. -/
structure Sound (query : BoundQuery) : Prop where
  items : ∀ item ∈ query.selectList, grouped query.groupBy item.expr = true
  having : ∀ predicate ∈ query.having, grouped query.groupBy predicate = true
  keys : ∀ key ∈ query.groupBy, hasAggregate key = false

theorem grouped_of_key {keys : List Expression} {key expression : Expression} (member : key ∈ keys)
    (same : withoutNames key = withoutNames expression) : grouped keys expression = true := by
  rw [grouped.eq_def, Bool.or_eq_true]
  left
  exact List.any_eq_true.mpr ⟨key, member, decide_eq_true same⟩

theorem grouped_of_parts {keys : List Expression} {expression : Expression} {parts : Bool}
    (shape : grouped keys expression =
      (keys.any (fun key => withoutNames key = withoutNames expression) || parts)) (holds : parts = true) :
    grouped keys expression = true := by
  rw [shape, holds, Bool.or_true]

theorem grouped_column {keys : List Expression} {name : String} {index : Nat} {type : DataType} :
    grouped keys (.column name index type) = true ↔
      ∃ name' type', Expression.column name' index type' ∈ keys := by
  constructor
  · intro isGrouped
    rw [grouped.eq_def, Bool.or_false] at isGrouped
    obtain ⟨key, member, same⟩ := List.any_eq_true.mp isGrouped
    have same := of_decide_eq_true same
    cases key with
    | column name' index' type' =>
      simp only [withoutNames, Expression.column.injEq, and_true, true_and] at same
      exact ⟨name', type', same ▸ member⟩
    | _ => simp [withoutNames] at same
  · rintro ⟨name', type', member⟩
    exact grouped_of_key member rfl

/-! ## Keys that are columns -/

/-- A column's key is no other expression's: every other text starts differently or has a blank. -/
theorem eq_column_of_structuralKey {expression : Expression} {name : String} {index : Nat} {type : DataType}
    (same : structuralKey expression = structuralKey (.column name index type)) :
    ∃ name' type', expression = .column name' index type' := by
  have written : keyText expression = "#".toList ++ index.repr.toList := by
    rw [← keyText_column name index type, keyText, same, keyText]
  have noBlank : ' ' ∉ keyText expression := by
    rw [written, List.mem_append]
    rintro (inSign | inDigits)
    · simp at inSign
    · have digit := isDigit_of_mem_repr inDigits
      cases digit
  cases expression with
  | column name' index' type' =>
    rw [keyText_column, List.append_cancel_left_eq, String.toList_inj, repr_inj] at written
    exact ⟨name', type', written ▸ rfl⟩
  | literal value type' =>
    obtain ⟨first, rest, shape, _, _, other⟩ := keyText_literal_eq_cons value type'
    rw [shape] at written
    exact absurd (List.cons.inj written).1 other
  | binary op left right type' =>
    rw [keyText_binary] at written
    cases written
  | unary op operand type' =>
    rw [keyText_unary] at written noBlank
    cases op with
    | not | negate => cases written
    | isNull | isNotNull => exact absurd (List.mem_append_right _ (by decide)) noBlank
  | cast operand type' =>
    rw [keyText_cast] at written
    cases written
  | extract part operand type' =>
    rw [keyText_extract] at written
    cases written
  | substring operand start length type' =>
    rw [keyText_substring] at written
    cases written
  | between value lower upper =>
    rw [keyText_between] at noBlank
    exact absurd (List.mem_append_right _ (List.mem_append_left _ (by decide))) noBlank
  | like value pattern negated =>
    rw [keyText_like] at noBlank
    refine absurd (List.mem_append_right _ (List.mem_append_left _ ?_)) noBlank
    cases negated <;> decide
  | caseWhen branches type' =>
    rw [keyText_caseWhen] at written
    cases written
  | aggregate function argument type' =>
    rw [keyText_aggregate] at written
    cases function <;> cases written
  | countStar type' =>
    rw [keyText_countStar] at written
    cases written

/-! ## Checked expressions -/

mutual

/-- What the check lets through is grouped. -/
theorem grouped_of_checked {keys : List Expression} : (expression : Expression) →
    referencesUngroupedColumn (keys.map structuralKey) false expression = false →
      grouped keys expression = true
  | .column name index type, checked => by
    simp only [referencesUngroupedColumn, Bool.not_false, Bool.true_and, Bool.not_eq_false',
      List.contains_iff_mem, List.mem_map] at checked
    obtain ⟨key, member, same⟩ := checked
    obtain ⟨name', type', rfl⟩ := eq_column_of_structuralKey same
    exact grouped_column.mpr ⟨name', type', member⟩
  | .literal .., _ => grouped_of_parts (grouped.eq_def ..) rfl
  | .binary _ left right _, checked => by
    simp only [referencesUngroupedColumn, Bool.or_eq_false_iff] at checked
    refine grouped_of_parts (grouped.eq_def ..) (Bool.and_eq_true_iff.mpr ⟨?_, ?_⟩)
    · exact grouped_of_checked left checked.1
    · exact grouped_of_checked right checked.2
  | .unary _ operand _, checked => grouped_of_parts (grouped.eq_def ..) (grouped_of_checked operand checked)
  | .cast operand _, checked => grouped_of_parts (grouped.eq_def ..) (grouped_of_checked operand checked)
  | .extract _ operand _, checked => grouped_of_parts (grouped.eq_def ..) (grouped_of_checked operand checked)
  | .substring operand _ _ _, checked =>
    grouped_of_parts (grouped.eq_def ..) (grouped_of_checked operand checked)
  | .between value lower upper, checked => by
    simp only [referencesUngroupedColumn, Bool.or_eq_false_iff] at checked
    refine grouped_of_parts (grouped.eq_def ..)
      (Bool.and_eq_true_iff.mpr ⟨Bool.and_eq_true_iff.mpr ⟨?_, ?_⟩, ?_⟩)
    · exact grouped_of_checked value checked.1.1
    · exact grouped_of_checked lower checked.1.2
    · exact grouped_of_checked upper checked.2
  | .like value _ _, checked => grouped_of_parts (grouped.eq_def ..) (grouped_of_checked value checked)
  | .caseWhen branches _, checked =>
    grouped_of_parts (grouped.eq_def ..) (branchesGrouped_of_checked branches checked)
  | .aggregate .., _ => grouped_of_parts (grouped.eq_def ..) rfl
  | .countStar _, _ => grouped_of_parts (grouped.eq_def ..) rfl

theorem branchesGrouped_of_checked {keys : List Expression} : (branches : CaseBranches) →
    branchesReferenceUngrouped (keys.map structuralKey) false branches = false →
      branchesGrouped keys branches = true
  | .done, _ => rfl
  | .otherwise result, checked => grouped_of_checked result checked
  | .when condition result rest, checked => by
    simp only [branchesReferenceUngrouped, Bool.or_eq_false_iff] at checked
    rw [branchesGrouped, grouped_of_checked condition checked.1.1, grouped_of_checked result checked.1.2,
      branchesGrouped_of_checked rest checked.2]
    rfl

end

mutual

/-- Without columns there is nothing to check. -/
theorem checked_of_columnUses (keys : List String) (insideAggregate : Bool) : (expression : Expression) →
    columnUses expression = [] → referencesUngroupedColumn keys insideAggregate expression = false
  | .column .., uses => by cases uses
  | .literal .., _ => rfl
  | .binary _ left right _, uses => by
    obtain ⟨leftUses, rightUses⟩ := List.append_eq_nil_iff.mp uses
    rw [referencesUngroupedColumn, checked_of_columnUses keys insideAggregate left leftUses,
      checked_of_columnUses keys insideAggregate right rightUses]
    rfl
  | .unary _ operand _, uses => checked_of_columnUses keys insideAggregate operand uses
  | .cast operand _, uses => checked_of_columnUses keys insideAggregate operand uses
  | .extract _ operand _, uses => checked_of_columnUses keys insideAggregate operand uses
  | .substring operand _ _ _, uses => checked_of_columnUses keys insideAggregate operand uses
  | .between value lower upper, uses => by
    obtain ⟨valueLowerUses, upperUses⟩ := List.append_eq_nil_iff.mp uses
    obtain ⟨valueUses, lowerUses⟩ := List.append_eq_nil_iff.mp valueLowerUses
    rw [referencesUngroupedColumn, checked_of_columnUses keys insideAggregate value valueUses,
      checked_of_columnUses keys insideAggregate lower lowerUses,
      checked_of_columnUses keys insideAggregate upper upperUses]
    rfl
  | .like value _ _, uses => checked_of_columnUses keys insideAggregate value uses
  | .caseWhen branches _, uses => branchesChecked_of_uses keys insideAggregate branches uses
  | .aggregate _ argument _, uses => checked_of_columnUses keys true argument uses
  | .countStar _, _ => rfl

theorem branchesChecked_of_uses (keys : List String) (insideAggregate : Bool) : (branches : CaseBranches) →
    branchUses branches = [] → branchesReferenceUngrouped keys insideAggregate branches = false
  | .done, _ => rfl
  | .otherwise result, uses => checked_of_columnUses keys insideAggregate result uses
  | .when condition result rest, uses => by
    obtain ⟨conditionResultUses, restUses⟩ := List.append_eq_nil_iff.mp uses
    obtain ⟨conditionUses, resultUses⟩ := List.append_eq_nil_iff.mp conditionResultUses
    rw [branchesReferenceUngrouped, checked_of_columnUses keys insideAggregate condition conditionUses,
      checked_of_columnUses keys insideAggregate result resultUses,
      branchesChecked_of_uses keys insideAggregate rest restUses]
    rfl

end

mutual

/-- With no grouping keys and no aggregates, an expression whose columns are grouped has none. -/
theorem columnUses_of_grouped : (expression : Expression) → hasAggregate expression = false →
    grouped [] expression = true → columnUses expression = []
  | .column .., _, isGrouped => by cases isGrouped
  | .literal .., _, _ => rfl
  | .binary _ left right _, plain, isGrouped => by
    rw [grouped.eq_def, List.any_nil, Bool.false_or, Bool.and_eq_true] at isGrouped
    simp only [hasAggregate, Bool.or_eq_false_iff] at plain
    rw [columnUses, columnUses_of_grouped left plain.1 isGrouped.1,
      columnUses_of_grouped right plain.2 isGrouped.2]
    rfl
  | .unary _ operand _, plain, isGrouped => columnUses_of_grouped operand plain isGrouped
  | .cast operand _, plain, isGrouped => columnUses_of_grouped operand plain isGrouped
  | .extract _ operand _, plain, isGrouped => columnUses_of_grouped operand plain isGrouped
  | .substring operand _ _ _, plain, isGrouped => columnUses_of_grouped operand plain isGrouped
  | .between value lower upper, plain, isGrouped => by
    rw [grouped.eq_def, List.any_nil, Bool.false_or, Bool.and_eq_true, Bool.and_eq_true] at isGrouped
    simp only [hasAggregate, Bool.or_eq_false_iff] at plain
    rw [columnUses, columnUses_of_grouped value plain.1.1 isGrouped.1.1,
      columnUses_of_grouped lower plain.1.2 isGrouped.1.2, columnUses_of_grouped upper plain.2 isGrouped.2]
    rfl
  | .like value _ _, plain, isGrouped => columnUses_of_grouped value plain isGrouped
  | .caseWhen branches _, plain, isGrouped => branchUses_of_grouped branches plain isGrouped
  | .aggregate .., plain, _ => by cases plain
  | .countStar _, _, _ => rfl

theorem branchUses_of_grouped : (branches : CaseBranches) → branchesHaveAggregate branches = false →
    branchesGrouped [] branches = true → branchUses branches = []
  | .done, _, _ => rfl
  | .otherwise result, plain, isGrouped => columnUses_of_grouped result plain isGrouped
  | .when condition result rest, plain, isGrouped => by
    rw [branchesGrouped, Bool.and_eq_true, Bool.and_eq_true] at isGrouped
    simp only [branchesHaveAggregate, Bool.or_eq_false_iff] at plain
    rw [branchUses, columnUses_of_grouped condition plain.1.1 isGrouped.1.1,
      columnUses_of_grouped result plain.1.2 isGrouped.1.2, branchUses_of_grouped rest plain.2 isGrouped.2]
    rfl

end

/-! ## Names of a scope -/

theorem findField_of_mem {schema : Schema} {field : Field} (member : field ∈ schema) :
    schema.findField field.name ≠ none := by
  intro absent
  have other := List.findIdx?_eq_none_iff.mp absent field member
  simp at other

theorem findPlain_eq_none {name : String} {sources : List JoinSource} {offset : Nat}
    {found : Option (Nat × String)} (ran : findPlain name offset found sources = .ok none) :
    found = none ∧ ∀ source ∈ sources, source.schema.findField name = none := by
  induction sources generalizing offset found with
  | nil => exact ⟨pure_eq_ok.mp ran, by simp⟩
  | cons source rest hypothesis =>
    unfold findPlain at ran
    split at ran
    · rename_i absent
      obtain ⟨notFound, nowhere⟩ := hypothesis ran
      exact ⟨notFound, List.forall_mem_cons.mpr ⟨absent, nowhere⟩⟩
    · split at ran
      · cases ran
      · cases (hypothesis ran).1

theorem mem_sourceFields {sources : List JoinSource} {offset : Nat} {field : Field} {index : Nat}
    (member : (field, index) ∈ sourceFields offset sources) : ∃ source ∈ sources, field ∈ source.schema := by
  induction sources generalizing offset with
  | nil => cases member
  | cons source rest hypothesis =>
    rcases List.mem_append.mp member with here | later
    · exact ⟨source, List.mem_cons_self .., List.fst_mem_of_mem_zipIdx here⟩
    · obtain ⟨holder, inRest, inSchema⟩ := hypothesis later
      exact ⟨holder, List.mem_cons_of_mem _ inRest, inSchema⟩

/-- The name of every field that `*` stands for is found, or is ambiguous. -/
theorem findFieldByPlainName_of_mem {scope : Scope} {field : Field} {index : Nat}
    (member : (field, index) ∈ allFieldsWithIndex scope) :
    findFieldByPlainName scope field.name ≠ .ok none := by
  intro absent
  cases scope with
  | table schema =>
    exact findField_of_mem (List.fst_mem_of_mem_zipIdx member) (pure_eq_ok.mp absent)
  | join sources =>
    simp only [findFieldByPlainName, bind_eq_ok, pure_eq_ok, Option.map_eq_none_iff] at absent
    obtain ⟨_, ran, rfl⟩ := absent
    obtain ⟨source, inSources, inSchema⟩ := mem_sourceFields member
    exact findField_of_mem inSchema ((findPlain_eq_none ran).2 source inSources)

/-- A reference that resolves is a column. -/
theorem namesColumn_of_bindColumnRef {scope : Scope} {reference : Reference} {column : Expression}
    (ran : bindColumnRef scope reference = .ok column) : namesColumn scope reference ≠ .ok false := by
  intro noColumn
  obtain ⟨plain, absent⟩ := namesColumn_eq_ok noColumn
  cases scope with
  | table schema =>
    simp only [bindColumnRef, plain] at ran
    obtain ⟨_, _, found, _⟩ := resolveColumn_eq_ok ran
    rw [findFieldByPlainName, found] at absent
    cases absent
  | join sources =>
    simp only [bindColumnRef, plain, bind_eq_ok] at ran
    obtain ⟨place, lookedUp, ran⟩ := ran
    simp only [findFieldByPlainName, lookedUp] at absent
    cases place with
    | none => cases ran
    | some place => cases absent

/-! ## Names of a select list -/

theorem nodup_addSelectItem {selected next : List NamedExpression} {item : NamedExpression}
    (ran : addSelectItem selected item = .ok next) (distinct : (selected.map NamedExpression.name).Nodup) :
    (next.map NamedExpression.name).Nodup := by
  unfold addSelectItem at ran
  split at ran
  · cases ran
  · rename_i unused
    rw [← Except.ok.inj ran, List.map_append, List.nodup_append_comm]
    refine List.nodup_cons.mpr ⟨fun used => unused ?_, distinct⟩
    obtain ⟨other, member, same⟩ := List.mem_map.mp used
    exact List.any_eq_true.mpr ⟨other, member, decide_eq_true same⟩

/-- The names of a select list are distinct. -/
theorem names_nodup {Statement : Type} {scope : Scope} {items : List (AstSelectItem Statement)}
    {selectList : List NamedExpression} (ran : bindSelectList scope items = .ok selectList) :
    (selectList.map NamedExpression.name).Nodup := by
  refine foldlM_invariant (fun _ selected => (selected.map NamedExpression.name).Nodup) ?_ ran List.nodup_nil
  intro _ selected item next distinct stepRan
  obtain ⟨part, _, added⟩ := bind_eq_ok.mp stepRan
  refine foldlM_invariant (fun _ selected => (selected.map NamedExpression.name).Nodup) ?_ added distinct
  intro _ selected' item' next' distinct' addedItem
  exact nodup_addSelectItem addedItem distinct'

/-! ## Accepted queries -/

/-- A statement the binder accepts, with the scope it binds the clauses in. -/
def AcceptedIn (stmt : AstSelectStatement) (scope : Scope) (query : BoundQuery) : Prop :=
  (∃ schema, scope = .table schema ∧ bindQuery stmt schema = .ok query) ∨
    ∃ clause schemas, stmt.join = some clause ∧ scope = .join (joinSources clause schemas) ∧
      bindJoinQuery stmt schemas = .ok query

/-- A statement with a `GROUP BY` or with an aggregate call in some clause. -/
def Aggregates (stmt : AstSelectStatement) : Prop :=
  isAggregateStatement stmt = true ∨ (∃ having ∈ stmt.having, containsAggregate having = true) ∨
    ∃ item ∈ stmt.orderBy, containsAggregate item.expr = true

/-- Whether a `GROUP BY` reference resolves to the column at an index. -/
def GroupsColumn (stmt : AstSelectStatement) (scope : Scope) (index : Nat) : Prop :=
  ∃ name table, .columnRef name table ∈ stmt.groupBy ∧
    ∃ name' type, bindColumnRef scope ⟨name, table⟩ = .ok (.column name' index type)

/-- A statement none of whose columns passes the check unseen. -/
structure Guarded (stmt : AstSelectStatement) (scope : Scope) : Prop where
  star : ∀ item ∈ stmt.selectList, isStar item.expr = true →
    ∀ field index, (field, index) ∈ allFieldsWithIndex scope → GroupsColumn stmt scope index
  aliases : ∀ name, .columnRef name none ∈ stmt.groupBy → findFieldByPlainName scope name = .ok none →
    ∀ item ∈ stmt.selectList, ∀ bound, bind scope true item.expr = .ok bound →
      outputName item bound = name → containsAggregate item.expr = false
  orderOnly : isAggregateStatement stmt = false →
    (∃ item ∈ stmt.orderBy, containsAggregate item.expr = true) →
      ∀ item ∈ stmt.selectList, references item.expr = []

theorem clausesBound_of_acceptedIn {stmt : AstSelectStatement} {scope : Scope} {query : BoundQuery}
    (accepted : AcceptedIn stmt scope query) : ∃ groupReferences keys,
      ClausesBound stmt scope (isAggregateStatement stmt) query groupReferences keys := by
  rcases accepted with ⟨schema, rfl, ran⟩ | ⟨clause, schemas, isJoin, rfl, ran⟩
  · obtain ⟨_, groupReferences, keys, clauses⟩ := bindQuery_eq_ok ran
    exact ⟨groupReferences, keys, clauses⟩
  · obtain ⟨clause', first, rest, steps, isJoin', rfl, bound⟩ := bindJoinQuery_eq_ok ran
    obtain rfl := Option.some.inj (isJoin.symm.trans isJoin')
    exact bound.clausesBound

section Clauses

variable {stmt : AstSelectStatement} {scope : Scope} {isAggregateQuery : Bool} {query : BoundQuery}
  {groupReferences : List Reference} {keys : List GroupKey}

/-- What a grouping key stands for. -/
def KeyOf (scope : Scope) (selectList : List NamedExpression) (reference : Reference) (key : Expression) : Prop :=
  bindColumnRef scope reference = .ok key ∨
    namesColumn scope reference = .ok false ∧ ∃ item ∈ selectList, item.name = reference.name ∧ key = item.expr

theorem keyOf_of_bindGroupKey {selectList : List NamedExpression} {reference : Reference} {key : GroupKey}
    (ran : bindGroupKey scope selectList reference = .ok key) : KeyOf scope selectList reference key.expr := by
  rcases bindGroupKey_eq_ok ran with ⟨columnRan, _⟩ | ⟨index, item, held, rfl, named, noColumn⟩
  · exact .inl columnRan
  · exact .inr ⟨noColumn, item, List.mem_of_getElem? held, named, rfl⟩

theorem groupByReference_column {Statement : Type} {expr : AstExpr Statement} {reference : Reference}
    (ran : groupByReference expr = .ok reference) : expr = .columnRef reference.name reference.table := by
  unfold groupByReference at ran
  split at ran
  · rw [← Except.ok.inj ran]
  · cases ran

theorem written_of_key (clauses : ClausesBound stmt scope isAggregateQuery query groupReferences keys)
    {key : Expression} (member : key ∈ query.groupBy) : ∃ reference : Reference,
      .columnRef reference.name reference.table ∈ stmt.groupBy ∧ KeyOf scope query.selectList reference key := by
  rw [clauses.groupBy] at member
  obtain ⟨groupKey, inKeys, rfl⟩ := List.mem_map.mp member
  obtain ⟨reference, inReferences, keyRan⟩ := exists_of_mem_mapM clauses.keysBound inKeys
  obtain ⟨expr, inGroupBy, referenceRan⟩ := exists_of_mem_mapM clauses.keysWritten inReferences
  exact ⟨reference, groupByReference_column referenceRan ▸ inGroupBy, keyOf_of_bindGroupKey keyRan⟩

theorem key_of_written (clauses : ClausesBound stmt scope isAggregateQuery query groupReferences keys)
    {name : String} {table : Option String} (member : .columnRef name table ∈ stmt.groupBy) :
    ∃ key ∈ query.groupBy, KeyOf scope query.selectList ⟨name, table⟩ key := by
  obtain ⟨reference, inReferences, referenceRan⟩ := exists_of_mem_left (mapM_eq_ok.mp clauses.keysWritten) member
  obtain rfl := Except.ok.inj referenceRan
  obtain ⟨groupKey, inKeys, keyRan⟩ := exists_of_mem_left (mapM_eq_ok.mp clauses.keysBound) inReferences
  refine ⟨groupKey.expr, ?_, keyOf_of_bindGroupKey keyRan⟩
  exact clauses.groupBy ▸ List.mem_map_of_mem inKeys

/-- A key that resolves as a column is that column. -/
theorem KeyOf.column {selectList : List NamedExpression} {reference : Reference} {key column : Expression}
    (isKey : KeyOf scope selectList reference key) (ran : bindColumnRef scope reference = .ok column) :
    key = column := by
  rcases isKey with keyRan | ⟨noColumn, _⟩
  · exact Except.ok.inj (keyRan.symm.trans ran)
  · exact absurd noColumn (namesColumn_of_bindColumnRef ran)

theorem mem_starItems {item : NamedExpression} (member : item ∈ starItems scope) :
    ∃ field index, (field, index) ∈ allFieldsWithIndex scope ∧
      item = ⟨.column field.name index field.type, field.name⟩ := by
  obtain ⟨⟨field, index⟩, inScope, rfl⟩ := List.mem_map.mp member
  exact ⟨field, index, inScope, rfl⟩

/-! ## Soundness -/

/-- A query without `GROUP BY` has no keys, and none of its select items an aggregate, unless it is an
aggregate query. -/
theorem plain_of_notAggregate (notAggregate : isAggregateStatement stmt = false)
    (clauses : ClausesBound stmt scope isAggregateQuery query groupReferences keys) :
    query.groupBy = [] ∧ ∀ item ∈ stmt.selectList, containsAggregate item.expr = false := by
  simp only [isAggregateStatement, Bool.or_eq_false_iff, Bool.not_eq_false', List.isEmpty_iff,
    List.any_eq_false, Bool.not_eq_true] at notAggregate
  refine ⟨?_, notAggregate.2⟩
  refine List.eq_nil_iff_forall_not_mem.mpr (fun key member => ?_)
  obtain ⟨reference, written, _⟩ := written_of_key clauses member
  rw [notAggregate.1] at written
  cases written

theorem grouped_items (clauses : ClausesBound stmt scope (isAggregateStatement stmt) query groupReferences keys)
    (aggregates : Aggregates stmt) (guarded : Guarded stmt scope) :
    ∀ item ∈ query.selectList, grouped query.groupBy item.expr = true := by
  intro item member
  rcases bindSelectList_eq_ok clauses.selectList with ⟨written, isItem, star, isStarItems⟩ | items
  · rw [isStarItems] at member
    obtain ⟨field, index, inScope, rfl⟩ := mem_starItems member
    have inSelectList : written ∈ stmt.selectList := isItem ▸ List.mem_singleton_self written
    obtain ⟨name, table, inGroupBy, name', type, ran⟩ := guarded.star written inSelectList star field index inScope
    obtain ⟨key, inKeys, isKey⟩ := key_of_written clauses inGroupBy
    exact grouped_column.mpr ⟨name', type, isKey.column ran ▸ inKeys⟩
  · cases isAggregate : isAggregateStatement stmt with
    | true =>
      rw [isAggregate] at clauses
      rcases key_or_checked clauses items item member with isKey | checked
      · exact grouped_of_key isKey rfl
      · exact grouped_of_checked item.expr checked
    | false =>
      have ordered : ∃ item ∈ stmt.orderBy, containsAggregate item.expr = true := by
        rcases aggregates with isAggregate' | ⟨having, isHaving, _⟩ | ordered
        · rw [isAggregate] at isAggregate'
          cases isAggregate'
        · have ran := clauses.having
          rw [isAggregate, isHaving] at ran
          rcases optionMapM_eq_ok.mp ran with ⟨absent, _⟩ | ⟨_, _, _, _, havingRan⟩
          · cases absent
          · cases havingRan
        · exact ordered
      obtain ⟨written, inSelectList, bound⟩ := exists_of_mem_right items member
      have noReference := guarded.orderOnly isAggregate ordered written inSelectList
      have noColumn : hasColumn item.expr = false := by
        rw [bind_hasColumn bound.expr, refers, noReference]
        rfl
      refine grouped_of_checked item.expr (checked_of_columnUses _ _ _ ?_)
      simpa [hasColumn] using noColumn

theorem sound_of_guarded (clauses : ClausesBound stmt scope (isAggregateStatement stmt) query groupReferences keys)
    (aggregates : Aggregates stmt) (guarded : Guarded stmt scope) : Sound query where
  items := grouped_items clauses aggregates guarded
  having predicate isPredicate := grouped_of_checked predicate (having_grouped clauses predicate isPredicate)
  keys key member := by
    obtain ⟨⟨name, table⟩, written, columnRan | ⟨noColumn, item, inSelectList, named, rfl⟩⟩ :=
      written_of_key clauses member
    · obtain ⟨_, _, _, rfl⟩ := bindColumnRef_column columnRan
      rfl
    · obtain ⟨rfl, absent⟩ := namesColumn_eq_ok noColumn
      rcases bindSelectList_eq_ok clauses.selectList with ⟨_, _, _, isStarItems⟩ | items
      · rw [isStarItems] at inSelectList
        obtain ⟨_, _, _, rfl⟩ := mem_starItems inSelectList
        rfl
      · obtain ⟨writtenItem, inWritten, bound⟩ := exists_of_mem_right items inSelectList
        rw [bind_hasAggregate bound.expr]
        exact guarded.aliases name written absent writtenItem inWritten item.expr bound.expr (bound.name ▸ named)

theorem isStar_eq {Statement : Type} {expression : AstExpr Statement} (star : isStar expression = true) :
    expression = .star := by
  cases expression <;> first | rfl | cases star

theorem guarded_of_sound (clauses : ClausesBound stmt scope (isAggregateStatement stmt) query groupReferences keys)
    (sound : Sound query) : Guarded stmt scope where
  star item member star field index inScope := by
    rcases bindSelectList_eq_ok clauses.selectList with ⟨_, _, _, isStarItems⟩ | items
    · have inSelectList : ⟨.column field.name index field.type, field.name⟩ ∈ query.selectList := by
        rw [isStarItems]
        exact List.mem_map.mpr ⟨(field, index), inScope, rfl⟩
      obtain ⟨name, type, inKeys⟩ := grouped_column.mp (sound.items _ inSelectList)
      obtain ⟨reference, written, columnRan | ⟨noColumn, other, inOthers, named, _⟩⟩ :=
        written_of_key clauses inKeys
      · exact ⟨reference.name, reference.table, written, name, type, columnRan⟩
      · -- A name that is no column of the scope is no field of the `*` either.
        rw [isStarItems] at inOthers
        obtain ⟨otherField, otherIndex, otherInScope, rfl⟩ := mem_starItems inOthers
        obtain ⟨_, absent⟩ := namesColumn_eq_ok noColumn
        rw [← named] at absent
        exact absurd absent (findFieldByPlainName_of_mem otherInScope)
    · obtain ⟨_, _, bound⟩ := exists_of_mem_left items member
      rw [bound.notStar] at star
      cases star
  aliases name written absent item member bound ran isNamed := by
    obtain ⟨key, inKeys, columnRan | ⟨_, other, inOthers, named, rfl⟩⟩ := key_of_written clauses written
    · refine absurd ?_ (namesColumn_of_bindColumnRef columnRan)
      simp [namesColumn, absent]
    · rcases bindSelectList_eq_ok clauses.selectList with ⟨star, isItem, isStar, _⟩ | items
      · rw [isItem, List.mem_singleton] at member
        rw [member, isStar_eq isStar]
        rfl
      · obtain ⟨image, inImages, imageBound⟩ := exists_of_mem_left items member
        obtain rfl := Except.ok.inj (imageBound.expr.symm.trans ran)
        have same : other = image := by
          refine List.inj_on_of_nodup_map (names_nodup clauses.selectList) inOthers inImages ?_
          rw [named, imageBound.name, isNamed]
        rw [← bind_hasAggregate ran, ← same]
        exact sound.keys other.expr inKeys
  orderOnly notAggregate _ item member := by
    obtain ⟨noKeys, plain⟩ := plain_of_notAggregate notAggregate clauses
    rcases bindSelectList_eq_ok clauses.selectList with ⟨star, isItem, isStar, _⟩ | items
    · rw [isItem, List.mem_singleton] at member
      rw [member, isStar_eq isStar]
      rfl
    · obtain ⟨image, inImages, bound⟩ := exists_of_mem_left items member
      have isGrouped := sound.items image inImages
      have noAggregate : hasAggregate image.expr = false := by
        rw [bind_hasAggregate bound.expr, plain item member]
      rw [noKeys] at isGrouped
      have noColumn : hasColumn image.expr = false := by
        rw [hasColumn, columnUses_of_grouped image.expr noAggregate isGrouped]
        rfl
      rw [bind_hasColumn bound.expr] at noColumn
      simpa [refers] using noColumn

end Clauses

/-- The columns of an accepted aggregate query are grouped exactly if none passes the check unseen. -/
theorem sound_iff_guarded {stmt : AstSelectStatement} {scope : Scope} {query : BoundQuery}
    (accepted : AcceptedIn stmt scope query) (aggregates : Aggregates stmt) :
    Sound query ↔ Guarded stmt scope := by
  obtain ⟨groupReferences, keys, clauses⟩ := clausesBound_of_acceptedIn accepted
  exact ⟨guarded_of_sound clauses, sound_of_guarded clauses aggregates⟩

theorem guarded_grouped : Guarded groupedStatement (.table readings.schema) where
  star item member star := by
    rcases List.mem_cons.mp member with rfl | member
    · cases star
    · obtain rfl := List.mem_singleton.mp member
      cases star
  aliases name written absent := by
    cases List.mem_singleton.mp written
    cases absent
  orderOnly notAggregate := by cases notAggregate

/-- `SELECT k, SUM(x) / COUNT(*) AS mean ... GROUP BY k HAVING SUM(x) > k` -/
theorem sound_iff_guarded_grouped :
    ∃ query, bindQuery groupedStatement readings.schema = .ok query ∧ Sound query := by
  refine ⟨_, rfl, ?_⟩
  have accepted : AcceptedIn groupedStatement (.table readings.schema) _ := .inl ⟨readings.schema, rfl, rfl⟩
  exact (sound_iff_guarded accepted (.inl rfl)).mpr guarded_grouped

/-- `SELECT * FROM read_parquet('readings.parquet') GROUP BY k` -/
def starStatement : AstSelectStatement where
  selectList := [⟨.star, none⟩]
  source := ⟨["readings.parquet"], none⟩
  groupBy := [.columnRef "k" none]

/-- The `*` stands for `k` and `x`, and `x` is no grouping key. -/
theorem star_ungrouped :
    ¬ ∀ (stmt : AstSelectStatement) (scope : Scope) (query : BoundQuery),
      AcceptedIn stmt scope query → Aggregates stmt → Sound query := by
  intro sound
  have ungrouped := (sound starStatement (.table readings.schema) _ (.inl ⟨readings.schema, rfl, rfl⟩)
    (.inl rfl)).items ⟨.column "x" 1 (float64Type false), "x"⟩ (by decide)
  revert ungrouped
  decide

end KernelLake.GroupingCheck
