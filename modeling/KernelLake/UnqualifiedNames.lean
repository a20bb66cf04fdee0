import KernelLake.JoinBinding

/-!
Unqualified names in a join chain.

The binder looks an unqualified name up twice: first for its index in the joined row, then for the source
that reaches that index. A semi or anti join leaves its source's columns out of the joined row, so such a
source shares its indices with the sources after it. The second lookup stops at the first source that
reaches the index, and if that is not the one with the name, the name is unknown.
-/

namespace KernelLake.UnqualifiedNames

open KernelLake.Types KernelLake.Expressions KernelLake.SqlAst KernelLake.Binder KernelLake.QueryBinding
open KernelLake.LogicalPlans KernelLake.BindingProofs KernelLake.JoinBinding KernelLake.Library.Results

/-! ## Lookups -/

/-- Exactly one source has a column of a name. -/
structure OnlyIn (sources : List JoinSource) (name : String) (number : Nat) (source : JoinSource)
    (position : Nat) : Prop where
  held : sources[number]? = some source
  column : source.schema.findField name = some position
  unique : ∀ another other, sources[another]? = some other → (other.schema.findField name).isSome = true →
    another = number

/-- The source is the first one with its alias, and no source before it whose columns are left out of the
joined row reaches the column's index. -/
structure Reached (sources : List JoinSource) (number : Nat) (source : JoinSource) (position : Nat) : Prop where
  firstAlias : ∀ earlier < number, ∀ other, sources[earlier]? = some other →
    other.tableAlias ≠ source.tableAlias
  uncovered : ∀ earlier < number, ∀ other, sources[earlier]? = some other → keepsRight other.joinType = false →
    offsetOf sources earlier + other.schema.length ≤ offsetOf sources number + position

theorem span_of_keeps {source : JoinSource} (keeps : keepsRight source.joinType = true) :
    source.span = source.schema.length :=
  if_pos keeps

theorem findField_eq_some {schema : Schema} {name : String} {position : Nat}
    (found : schema.findField name = some position) : ∃ field, schema[position]? = some field := by
  obtain ⟨inRange, _⟩ := List.findIdx?_eq_some_iff_getElem.mp found
  exact ⟨schema[position], List.getElem?_eq_getElem inRange⟩

section Chain

variable {sources rest : List JoinSource} {name : String} {number position offset : Nat} {source first : JoinSource}

theorem OnlyIn.tail (only : OnlyIn (first :: rest) name (number + 1) source position) :
    first.schema.findField name = none ∧ OnlyIn rest name number source position := by
  constructor
  · cases absent : first.schema.findField name with
    | none => rfl
    | some place => cases only.unique 0 first rfl (by rw [absent]; rfl)
  · refine ⟨only.held, only.column, fun another other isOther present => ?_⟩
    have same := only.unique (another + 1) other isOther present
    omega

theorem findPlain_absent {found : Option (Nat × String)}
    (absent : ∀ source ∈ sources, source.schema.findField name = none) :
    findPlain name offset found sources = .ok found := by
  induction sources generalizing offset with
  | nil => rfl
  | cons source rest hypothesis =>
    obtain ⟨here, after⟩ := List.forall_mem_cons.mp absent
    rw [findPlain, here]
    exact hypothesis after

/-- The first lookup finds the index that the qualified name has. -/
theorem findPlain_only (only : OnlyIn sources name number source position) :
    findPlain name offset none sources =
      .ok (some (offset + offsetOf sources number + position, source.tableAlias)) := by
  induction sources generalizing offset number with
  | nil => cases only.held
  | cons first rest hypothesis =>
    cases number with
    | zero =>
      obtain rfl := Option.some.inj only.held
      have nowhereElse : ∀ other ∈ rest, other.schema.findField name = none := by
        intro other member
        obtain ⟨another, isOther⟩ := List.mem_iff_getElem?.mp member
        cases absent : other.schema.findField name with
        | none => rfl
        | some place => cases only.unique (another + 1) other isOther (by rw [absent]; rfl)
      rw [findPlain, only.column]
      exact findPlain_absent nowhereElse
    | succ number =>
      obtain ⟨absent, onlyRest⟩ := only.tail
      rw [findPlain, absent]
      simp only
      rw [hypothesis onlyRest, offsetOf_succ, Nat.add_assoc offset]

/-- The second lookup finds the source again if no source before it reaches the index. -/
theorem resolveAt_reached (only : OnlyIn sources name number source position)
    (uncovered : ∀ earlier < number, ∀ other, sources[earlier]? = some other →
      keepsRight other.joinType = false →
        offsetOf sources earlier + other.schema.length ≤ offsetOf sources number + position) :
    resolveAt (offset + offsetOf sources number + position) name offset sources =
      resolveColumn source.schema (offset + offsetOf sources number) name := by
  induction sources generalizing offset number with
  | nil => cases only.held
  | cons first rest hypothesis =>
    cases number with
    | zero =>
      obtain rfl := Option.some.inj only.held
      obtain ⟨_, isField⟩ := findField_eq_some only.column
      have inside := (List.getElem?_eq_some_iff.mp isField).1
      rw [resolveAt, offsetOf_zero, if_pos (by omega), Nat.add_zero]
    | succ number =>
      obtain ⟨_, onlyRest⟩ := only.tail
      have past : offset + first.schema.length ≤ offset + offsetOf (first :: rest) (number + 1) + position := by
        cases keeps : keepsRight first.joinType with
        | true =>
          rw [offsetOf_succ, span_of_keeps keeps]
          omega
        | false =>
          have reached := uncovered 0 (Nat.succ_pos number) first rfl keeps
          rw [offsetOf_zero] at reached
          omega
      rw [resolveAt, if_neg (Nat.not_lt.mpr past), offsetOf_succ, ← Nat.add_assoc offset]
      apply hypothesis onlyRest
      intro earlier before other isOther drops
      have reached := uncovered (earlier + 1) (Nat.succ_lt_succ before) other isOther drops
      rw [offsetOf_succ, offsetOf_succ] at reached
      omega

/-- If the second lookup succeeds, no source before the right one reaches the index. -/
theorem uncovered_of_resolveAt (only : OnlyIn sources name number source position) {column : Expression}
    (ran : resolveAt (offset + offsetOf sources number + position) name offset sources = .ok column) :
    ∀ earlier < number, ∀ other, sources[earlier]? = some other → keepsRight other.joinType = false →
      offsetOf sources earlier + other.schema.length ≤ offsetOf sources number + position := by
  induction sources generalizing offset number with
  | nil => cases only.held
  | cons first rest hypothesis =>
    cases number with
    | zero => exact fun earlier before => absurd before (Nat.not_lt_zero earlier)
    | succ number =>
      obtain ⟨absent, onlyRest⟩ := only.tail
      rw [resolveAt] at ran
      split at ran
      · rw [resolveColumn, absent] at ran
        cases ran
      · rename_i past
        rw [offsetOf_succ, ← Nat.add_assoc offset] at ran past
        have reached := hypothesis onlyRest ran
        intro earlier before other isOther drops
        cases earlier with
        | zero =>
          obtain rfl := Option.some.inj isOther
          rw [offsetOf_zero, offsetOf_succ]
          omega
        | succ earlier =>
          rw [offsetOf_succ, offsetOf_succ]
          have inRest := reached earlier (Nat.lt_of_succ_lt_succ before) other isOther drops
          omega

theorem resolveQualified_first (held : sources[number]? = some source)
    (firstAlias : ∀ earlier < number, ∀ other, sources[earlier]? = some other →
      other.tableAlias ≠ source.tableAlias) :
    resolveQualified source.tableAlias name offset sources =
      some (resolveColumn source.schema (offset + offsetOf sources number) name) := by
  induction sources generalizing offset number with
  | nil => cases held
  | cons first rest hypothesis =>
    cases number with
    | zero =>
      obtain rfl := Option.some.inj held
      rw [resolveQualified, if_pos rfl, offsetOf_zero, Nat.add_zero]
    | succ number =>
      rw [resolveQualified, if_neg (firstAlias 0 (Nat.succ_pos number) first rfl), offsetOf_succ,
        ← Nat.add_assoc offset]
      exact hypothesis held (fun earlier before => firstAlias (earlier + 1) (Nat.succ_lt_succ before))

end Chain

/-! ## References -/

section References

variable {sources : List JoinSource} {name : String} {number position : Nat} {source : JoinSource}

/-- An unqualified name and the same name qualified are one column. -/
def SameColumn (scope : Scope) (name tableAlias : String) : Prop :=
  ∃ column, bindColumnRef scope ⟨name, none⟩ = .ok column ∧ bindColumnRef scope ⟨name, some tableAlias⟩ = .ok column

theorem bindColumnRef_plain (only : OnlyIn sources name number source position) :
    bindColumnRef (.join sources) ⟨name, none⟩ =
      resolveAt (0 + offsetOf sources number + position) name 0 sources := by
  simp only [bindColumnRef, findPlain_only only]
  rfl

theorem sameColumn_iff (only : OnlyIn sources name number source position) :
    SameColumn (.join sources) name source.tableAlias ↔ Reached sources number source position := by
  obtain ⟨field, isField⟩ := findField_eq_some only.column
  have resolved : resolveColumn source.schema (0 + offsetOf sources number) name =
      .ok (.column field.name (0 + offsetOf sources number + position) field.type) := by
    rw [resolveColumn, only.column]
    simp only [isField]
  constructor
  · rintro ⟨column, plainRan, qualifiedRan⟩
    rw [bindColumnRef_plain only] at plainRan
    refine ⟨?_, uncovered_of_resolveAt only plainRan⟩
    obtain ⟨another, place, denotes, _⟩ := bindColumnRef_denotes qualifiedRan
    cases denotes with
    | qualified held isAlias first column =>
      obtain rfl := only.unique another _ held (by rw [column]; rfl)
      exact first
  · intro reached
    refine ⟨.column field.name (0 + offsetOf sources number + position) field.type, ?_, ?_⟩
    · rw [bindColumnRef_plain only, resolveAt_reached only reached.uncovered]
      exact resolved
    · simp only [bindColumnRef, resolveQualified_first only.held reached.firstAlias, Option.getD_some]
      exact resolved

theorem findPlain_second {firstAlias : String} {sources : List JoinSource}
    (present : ∃ source ∈ sources, (source.schema.findField name).isSome = true) :
    ∃ second ∈ sources, (second.schema.findField name).isSome = true ∧
      ∀ offset place, findPlain name offset (some (place, firstAlias)) sources =
        .error (ambiguousColumn name firstAlias second.tableAlias) := by
  induction sources with
  | nil =>
    obtain ⟨_, member, _⟩ := present
    cases member
  | cons source rest hypothesis =>
    cases found : source.schema.findField name with
    | some index =>
      refine ⟨source, List.mem_cons_self .., by rw [found]; rfl, fun offset place => ?_⟩
      rw [findPlain, found]
    | none =>
      have inRest : ∃ source ∈ rest, (source.schema.findField name).isSome = true := by
        obtain ⟨other, member, has⟩ := present
        rcases List.mem_cons.mp member with rfl | inRest
        · rw [found] at has
          cases has
        · exact ⟨other, inRest, has⟩
      obtain ⟨second, member, has, ran⟩ := hypothesis inRest
      refine ⟨second, List.mem_cons_of_mem _ member, has, fun offset place => ?_⟩
      rw [findPlain, found]
      exact ran (offset + source.span) place

/-- A name that two sources have is ambiguous between two that have it. -/
theorem findPlain_ambiguous {first second : Nat} {one other : JoinSource} (before : first < second)
    (isFirst : sources[first]? = some one) (isSecond : sources[second]? = some other)
    (inOne : (one.schema.findField name).isSome = true) (inOther : (other.schema.findField name).isSome = true) :
    ∃ found ∈ sources, ∃ again ∈ sources, (found.schema.findField name).isSome = true ∧
      (again.schema.findField name).isSome = true ∧ ∀ offset, findPlain name offset none sources =
        .error (ambiguousColumn name found.tableAlias again.tableAlias) := by
  induction sources generalizing first second with
  | nil => cases isFirst
  | cons source rest hypothesis =>
    obtain ⟨second, rfl⟩ := Nat.exists_eq_add_one_of_ne_zero (Nat.ne_of_gt (Nat.zero_lt_of_lt before))
    have otherInRest : other ∈ rest := List.mem_of_getElem? (show rest[second]? = some other from isSecond)
    cases found : source.schema.findField name with
    | some index =>
      obtain ⟨again, member, has, ran⟩ := @findPlain_second name source.tableAlias rest ⟨other, otherInRest, inOther⟩
      refine ⟨source, List.mem_cons_self .., again, List.mem_cons_of_mem _ member, by rw [found]; rfl, has,
        fun offset => ?_⟩
      rw [findPlain, found]
      exact ran (offset + source.span) (offset + index)
    | none =>
      cases first with
      | zero =>
        obtain rfl := Option.some.inj isFirst
        rw [found] at inOne
        cases inOne
      | succ first =>
        obtain ⟨one', inRest, again, againInRest, has, hasAgain, ran⟩ :=
          hypothesis (Nat.lt_of_succ_lt_succ before) isFirst isSecond
        refine ⟨one', List.mem_cons_of_mem _ inRest, again, List.mem_cons_of_mem _ againInRest, has, hasAgain,
          fun offset => ?_⟩
        rw [findPlain, found]
        exact ran (offset + source.span)

end References

/-! ## Rewritten references -/

section Rewriting

variable {Statement : Type} (rewrite : Reference → Reference)

mutual

/-- An expression with every reference outside its subqueries rewritten. -/
def mapReferences : AstExpr Statement → AstExpr Statement
  | .columnRef name table => .columnRef (rewrite ⟨name, table⟩).name (rewrite ⟨name, table⟩).table
  | .star => .star
  | .literal value => .literal value
  | .binary op left right => .binary op (mapReferences left) (mapReferences right)
  | .unary op operand => .unary op (mapReferences operand)
  | .between value lower upper => .between (mapReferences value) (mapReferences lower) (mapReferences upper)
  | .aggregate function argument => .aggregate function (mapReferences argument)
  | .countStar => .countStar
  | .like value pattern negated => .like (mapReferences value) (mapReferences pattern) negated
  | .inList value list negated => .inList (mapReferences value) (mapListReferences list) negated
  | .inSubquery value subquery negated => .inSubquery (mapReferences value) subquery negated
  | .caseWhen condition result rest =>
    .caseWhen (mapReferences condition) (mapReferences result) (mapBranchReferences rest)
  | .cast operand typeName precision scale => .cast (mapReferences operand) typeName precision scale
  | .extract part operand => .extract part (mapReferences operand)
  | .substring operand start length => .substring (mapReferences operand) start length
  | .subquery statement => .subquery statement
  | .exists subquery negated => .exists subquery negated

def mapListReferences : AstExprList Statement → AstExprList Statement
  | .nil => .nil
  | .cons head tail => .cons (mapReferences head) (mapListReferences tail)

def mapBranchReferences : AstBranches Statement → AstBranches Statement
  | .done => .done
  | .otherwise result => .otherwise (mapReferences result)
  | .when condition result rest =>
    .when (mapReferences condition) (mapReferences result) (mapBranchReferences rest)

end

@[simp] theorem isUntypedNull_mapReferences (expression : AstExpr Statement) :
    isUntypedNull (mapReferences rewrite expression) = isUntypedNull expression := by
  cases expression <;> rfl

@[simp] theorem isEmpty_mapListReferences (list : AstExprList Statement) :
    (mapListReferences rewrite list).isEmpty = list.isEmpty := by
  cases list <;> rfl

theorem combineLike_mapReferences (value : Expression) (pattern : AstExpr Statement) (negated : Bool) :
    combineLike value (mapReferences rewrite pattern) negated = combineLike value pattern negated := by
  cases pattern <;> rfl

mutual

@[simp] theorem containsAggregate_mapReferences : (expression : AstExpr Statement) →
    containsAggregate (mapReferences rewrite expression) = containsAggregate expression
  | .columnRef .. | .star | .literal _ | .aggregate .. | .countStar | .subquery _ | .exists .. => rfl
  | .binary _ left right => by
    simp only [mapReferences, containsAggregate, containsAggregate_mapReferences left,
      containsAggregate_mapReferences right]
  | .unary _ operand | .cast operand _ _ _ | .extract _ operand | .substring operand _ _
  | .inSubquery operand _ _ => containsAggregate_mapReferences operand
  | .between value lower upper => by
    simp only [mapReferences, containsAggregate, containsAggregate_mapReferences value,
      containsAggregate_mapReferences lower, containsAggregate_mapReferences upper]
  | .like value pattern _ => by
    simp only [mapReferences, containsAggregate, containsAggregate_mapReferences value,
      containsAggregate_mapReferences pattern]
  | .inList value list _ => by
    simp only [mapReferences, containsAggregate, containsAggregate_mapReferences value,
      listContainsAggregate_mapReferences list]
  | .caseWhen condition result rest => by
    simp only [mapReferences, containsAggregate, containsAggregate_mapReferences condition,
      containsAggregate_mapReferences result, branchesContainAggregate_mapReferences rest]

theorem listContainsAggregate_mapReferences : (list : AstExprList Statement) →
    listContainsAggregate (mapListReferences rewrite list) = listContainsAggregate list
  | .nil => rfl
  | .cons head tail => by
    simp only [mapListReferences, listContainsAggregate, containsAggregate_mapReferences head,
      listContainsAggregate_mapReferences tail]

theorem branchesContainAggregate_mapReferences : (branches : AstBranches Statement) →
    branchesContainAggregate (mapBranchReferences rewrite branches) = branchesContainAggregate branches
  | .done => rfl
  | .otherwise result => containsAggregate_mapReferences result
  | .when condition result rest => by
    simp only [mapBranchReferences, branchesContainAggregate, containsAggregate_mapReferences condition,
      containsAggregate_mapReferences result, branchesContainAggregate_mapReferences rest]

end

variable {rewrite} {resolve : Reference → Except String Expression}

mutual

/-- Rewriting references to others that resolve to the same columns changes nothing. -/
theorem bindWith_mapReferences (same : ∀ reference, resolve (rewrite reference) = resolve reference)
    (allowAggregates : Bool) : (expression : AstExpr Statement) →
    bindWith resolve allowAggregates (mapReferences rewrite expression) =
      bindWith resolve allowAggregates expression
  | .columnRef name table => by
    rw [mapReferences, bindWith, bindWith]
    exact same ⟨name, table⟩
  | .star | .literal _ | .countStar | .inSubquery .. | .subquery _ | .exists .. => by
    simp only [mapReferences, bindWith]
  | .binary _ left right => by
    simp only [mapReferences, bindWith, isUntypedNull_mapReferences,
      bindWith_mapReferences same allowAggregates left, bindWith_mapReferences same allowAggregates right]
  | .unary _ operand => by
    simp only [mapReferences, bindWith, bindWith_mapReferences same allowAggregates operand]
  | .cast operand _ _ _ => by
    simp only [mapReferences, bindWith, bindWith_mapReferences same allowAggregates operand]
  | .extract _ operand => by
    simp only [mapReferences, bindWith, bindWith_mapReferences same allowAggregates operand]
  | .substring operand _ _ => by
    simp only [mapReferences, bindWith, bindWith_mapReferences same allowAggregates operand]
  | .between value lower upper => by
    simp only [mapReferences, bindWith, bindWith_mapReferences same allowAggregates value,
      bindWith_mapReferences same allowAggregates lower, bindWith_mapReferences same allowAggregates upper]
  | .aggregate _ argument => by
    simp only [mapReferences, bindWith, containsAggregate_mapReferences, bindWith_mapReferences same false argument]
  | .like value pattern _ => by
    simp only [mapReferences, bindWith, bindWith_mapReferences same allowAggregates value,
      combineLike_mapReferences]
  | .inList value list _ => by
    simp only [mapReferences, bindWith, isEmpty_mapListReferences,
      bindWith_mapReferences same allowAggregates value, bindItems_mapReferences same allowAggregates list]
  | .caseWhen condition result rest => by
    simp only [mapReferences, bindWith, bindWith_mapReferences same allowAggregates condition,
      bindWith_mapReferences same allowAggregates result, bindBranches_mapReferences same allowAggregates rest]

theorem bindItems_mapReferences (same : ∀ reference, resolve (rewrite reference) = resolve reference)
    (allowAggregates : Bool) : (list : AstExprList Statement) → ∀ value sofar,
    bindItems resolve allowAggregates value sofar (mapListReferences rewrite list) =
      bindItems resolve allowAggregates value sofar list
  | .nil, _, _ => rfl
  | .cons head tail, _, _ => by
    simp only [mapListReferences, bindItems, isUntypedNull_mapReferences,
      bindWith_mapReferences same allowAggregates head, bindItems_mapReferences same allowAggregates tail]

theorem bindBranches_mapReferences (same : ∀ reference, resolve (rewrite reference) = resolve reference)
    (allowAggregates : Bool) : (branches : AstBranches Statement) →
    bindBranches resolve allowAggregates (mapBranchReferences rewrite branches) =
      bindBranches resolve allowAggregates branches
  | .done => rfl
  | .otherwise result => by
    simp only [mapBranchReferences, bindBranches, bindWith_mapReferences same allowAggregates result]
  | .when condition result rest => by
    simp only [mapBranchReferences, bindBranches, bindWith_mapReferences same allowAggregates condition,
      bindWith_mapReferences same allowAggregates result, bindBranches_mapReferences same allowAggregates rest]

end

end Rewriting

/-! ## Statements -/

def mapStepReferences (rewrite : Reference → Reference) (step : AstJoinStep AstSelectStatement) :
    AstJoinStep AstSelectStatement :=
  { step with condition := mapReferences rewrite step.condition }

def mapClauseReferences (rewrite : Reference → Reference) (clause : AstJoinClause AstSelectStatement) :
    AstJoinClause AstSelectStatement :=
  { clause with steps := clause.steps.map (mapStepReferences rewrite) }

/-- A statement with the references of all its clauses rewritten. -/
def mapStatementReferences (rewrite : Reference → Reference) (stmt : AstSelectStatement) : AstSelectStatement :=
  { stmt with
    selectList := stmt.selectList.map (fun item => { item with expr := mapReferences rewrite item.expr })
    join := stmt.join.map (mapClauseReferences rewrite)
    condition := stmt.condition.map (mapReferences rewrite)
    groupBy := stmt.groupBy.map (mapReferences rewrite)
    having := stmt.having.map (mapReferences rewrite)
    orderBy := stmt.orderBy.map (fun item => { item with expr := mapReferences rewrite item.expr }) }

/-- References are rewritten to others of the same name that resolve to the same columns and group keys. -/
structure Interchangeable (scope : Scope) (rewrite : Reference → Reference) : Prop where
  name : ∀ reference, (rewrite reference).name = reference.name
  column : ∀ reference, bindColumnRef scope (rewrite reference) = bindColumnRef scope reference
  key : ∀ selectList reference,
    bindGroupKey scope selectList (rewrite reference) = bindGroupKey scope selectList reference

section Statements

variable {scope : Scope} {rewrite : Reference → Reference}

theorem bind_mapReferences {Statement : Type} (same : Interchangeable scope rewrite) (allowAggregates : Bool)
    (expression : AstExpr Statement) :
    bind scope allowAggregates (mapReferences rewrite expression) = bind scope allowAggregates expression :=
  bindWith_mapReferences same.column allowAggregates expression

theorem isStar_mapReferences {Statement : Type} (expression : AstExpr Statement) :
    isStar (mapReferences rewrite expression) = isStar expression := by
  cases expression <;> rfl

theorem isColumnRef_mapReferences {Statement : Type} (same : Interchangeable scope rewrite)
    (expression : AstExpr Statement) : isColumnRef (mapReferences rewrite expression) = isColumnRef expression := by
  cases expression with
  | columnRef name table => exact congrArg some (same.name ⟨name, table⟩)
  | _ => rfl

theorem mapM_map_eq {α β γ : Type} {action : α → Except String γ} {other : β → Except String γ} {change : β → α}
    (same : ∀ input, action (change input) = other input) (inputs : List β) :
    (inputs.map change).mapM action = inputs.mapM other := by
  induction inputs with
  | nil => rfl
  | cons input inputs hypothesis => simp only [List.map_cons, List.mapM_cons, same, hypothesis]

theorem optionMapM_map_eq {α β γ : Type} {action : α → Except String γ} {other : β → Except String γ}
    {change : β → α} (same : ∀ input, action (change input) = other input) (input : Option β) :
    (input.map change).mapM action = input.mapM other := by
  cases input with
  | none => rfl
  | some input => simp only [Option.map_some, Option.mapM_some, same]

theorem bindSelectItem_mapReferences {Statement : Type} (same : Interchangeable scope rewrite) (count : Nat)
    (item : AstSelectItem Statement) :
    bindSelectItem scope count { item with expr := mapReferences rewrite item.expr } =
      bindSelectItem scope count item := by
  simp only [bindSelectItem, outputName, isStar_mapReferences, bind_mapReferences same,
    isColumnRef_mapReferences same]

theorem bindSelectList_mapReferences {Statement : Type} (same : Interchangeable scope rewrite)
    (items : List (AstSelectItem Statement)) :
    bindSelectList scope (items.map (fun item => { item with expr := mapReferences rewrite item.expr })) =
      bindSelectList scope items := by
  simp only [bindSelectList, List.foldlM_map, List.length_map, bindSelectItem_mapReferences same]

theorem checkedItems_mapReferences {Statement : Type} (items : List (AstSelectItem Statement))
    (selectList : List NamedExpression) (keys : List GroupKey) :
    checkedItems (items.map (fun item => { item with expr := mapReferences rewrite item.expr })) selectList keys =
      checkedItems items selectList keys := by
  simp only [checkedItems, List.zip_map_left, List.zipIdx_map, List.filter_map, List.map_map,
    Function.comp_def, Prod.map, isStar_mapReferences, id]

theorem groupByReference_mapReferences {Statement : Type} (expression : AstExpr Statement) :
    groupByReference (mapReferences rewrite expression) = (groupByReference expression).map rewrite := by
  cases expression <;> rfl

theorem bindGroupKeys_mapReferences {Statement result : Type} (groupBy : List (AstExpr Statement))
    (next : List Reference → Except String result)
    (keyed : ∀ written, next (written.map rewrite) = next written) :
    (groupBy.map (mapReferences rewrite)).mapM groupByReference >>= next = groupBy.mapM groupByReference >>= next := by
  have mapped : (groupBy.map (mapReferences rewrite)).mapM groupByReference =
      (groupBy.mapM groupByReference).map (List.map rewrite) := by
    induction groupBy with
    | nil => rfl
    | cons first rest hypothesis =>
      simp only [List.map_cons, List.mapM_cons, hypothesis, groupByReference_mapReferences]
      cases groupByReference first with
      | error message => rfl
      | ok reference => cases rest.mapM groupByReference <;> rfl
  rw [mapped]
  cases groupBy.mapM groupByReference with
  | error message => rfl
  | ok written => exact keyed written

theorem isAggregateStatement_mapReferences (stmt : AstSelectStatement) :
    isAggregateStatement (mapStatementReferences rewrite stmt) = isAggregateStatement stmt := by
  simp only [isAggregateStatement, mapStatementReferences, List.isEmpty_map, List.any_map, Function.comp_def,
    containsAggregate_mapReferences]

theorem bindOrderByItem_mapReferences {Statement : Type} (same : Interchangeable scope rewrite)
    (isAggregateQuery : Bool) (outputSchema : Schema) (item : AstOrderByItem Statement) :
    bindOrderByItem scope isAggregateQuery outputSchema { item with expr := mapReferences rewrite item.expr } =
      bindOrderByItem scope isAggregateQuery outputSchema item := by
  simp only [bindOrderByItem, bindOutputColumn, isColumnRef_mapReferences same, bind_mapReferences same]

theorem bindQueryCommon_mapReferences (same : Interchangeable scope rewrite) (stmt : AstSelectStatement)
    (isAggregateQuery : Bool) :
    bindQueryCommon (mapStatementReferences rewrite stmt) scope isAggregateQuery =
      bindQueryCommon stmt scope isAggregateQuery := by
  have condition : ∀ written : SqlExpr,
      bindCondition scope (mapReferences rewrite written) = bindCondition scope written := by
    intro written
    simp only [bindCondition, containsAggregate_mapReferences, bind_mapReferences same]
  have having : ∀ groupByKeys (written : SqlExpr),
      bindHaving scope isAggregateQuery groupByKeys (mapReferences rewrite written) =
        bindHaving scope isAggregateQuery groupByKeys written := by
    intro groupByKeys written
    simp only [bindHaving, bind_mapReferences same]
  unfold bindQueryCommon
  simp only [mapStatementReferences, bindSelectList_mapReferences same, checkedItems_mapReferences,
    optionMapM_map_eq condition, optionMapM_map_eq (having _),
    mapM_map_eq (bindOrderByItem_mapReferences same isAggregateQuery _)]
  refine bindGroupKeys_mapReferences stmt.groupBy _ (fun written => ?_)
  simp only [mapM_map_eq (same.key _)]

theorem bindJoinSteps_mapReferences (same : Interchangeable scope rewrite)
    (steps : List (AstJoinStep AstSelectStatement × Schema)) (count : Nat) :
    bindJoinSteps scope count (steps.map (fun step => (mapStepReferences rewrite step.1, step.2))) =
      bindJoinSteps scope count steps := by
  induction steps generalizing count with
  | nil => rfl
  | cons step rest hypothesis =>
    simp only [List.map_cons, bindJoinSteps, mapStepReferences, bind_mapReferences same]
    simp only [mapStepReferences] at hypothesis
    simp only [hypothesis]

end Statements

theorem joinSources_mapReferences (rewrite : Reference → Reference) (clause : AstJoinClause AstSelectStatement)
    (schemas : List Schema) :
    joinSources (mapClauseReferences rewrite clause) schemas = joinSources clause schemas := by
  cases schemas with
  | nil => rfl
  | cons first rest =>
    simp only [joinSources, mapClauseReferences, mapStepReferences, List.zip_map_left, List.map_map,
      Function.comp_def, Prod.map, id]

/-- A statement whose references are rewritten to interchangeable ones binds to the same query. -/
theorem bindJoinQuery_mapReferences {rewrite : Reference → Reference} {stmt : AstSelectStatement}
    {clause : AstJoinClause AstSelectStatement} {schemas : List Schema} (isJoin : stmt.join = some clause)
    (same : Interchangeable (.join (joinSources clause schemas)) rewrite) :
    bindJoinQuery (mapStatementReferences rewrite stmt) schemas = bindJoinQuery stmt schemas := by
  have rewritten : (mapStatementReferences rewrite stmt).join = some (mapClauseReferences rewrite clause) := by
    simp only [mapStatementReferences, isJoin, Option.map_some]
  unfold bindJoinQuery
  rw [rewritten, isJoin]
  cases schemas with
  | nil => rfl
  | cons first rest =>
    have steps := bindJoinSteps_mapReferences same (clause.steps.zip rest) first.length
    simp only [joinSources_mapReferences, isAggregateStatement_mapReferences, bindQueryCommon_mapReferences same]
    simp only [mapClauseReferences, List.length_map, List.zip_map_left, Prod.map_def, id, steps]

/-! ## Every position -/

section Resolved

variable {Statement : Type} {resolve : Reference → Except String Expression}

/-- Every one of the given references resolves. -/
def AllResolve (resolve : Reference → Except String Expression) (written : List Reference) : Prop :=
  ∀ reference ∈ written, ∃ column, resolve reference = .ok column

theorem allResolve_append {written more : List Reference} :
    AllResolve resolve (written ++ more) ↔ AllResolve resolve written ∧ AllResolve resolve more :=
  List.forall_mem_append

theorem references_untypedNull {expression : AstExpr Statement} (untyped : isUntypedNull expression = true) :
    references expression = [] := by
  cases expression with
  | literal _ => rfl
  | _ => cases untyped

mutual

/-- An expression that was bound has no reference that does not resolve. -/
theorem bindWith_resolves (allowAggregates : Bool) : (expression : AstExpr Statement) → (result : Expression) →
    bindWith resolve allowAggregates expression = .ok result → AllResolve resolve (references expression)
  | .columnRef name table, result, ran => List.forall_mem_singleton.mpr ⟨result, ran⟩
  | .star, _, _ | .literal _, _, _ | .countStar, _, _ | .subquery _, _, _ | .exists .., _, _ => List.forall_mem_nil _
  | .inSubquery .., _, ran => by cases ran
  | .binary op left right, result, ran => by
    rw [references, allResolve_append]
    rw [bindWith] at ran
    split at ran
    · rename_i leftNull
      obtain ⟨right', rightRan, _⟩ := bind_eq_ok.mp ran
      rw [references_untypedNull (Bool.and_eq_true_iff.mp leftNull).1]
      exact ⟨List.forall_mem_nil _, bindWith_resolves allowAggregates right right' rightRan⟩
    · split at ran
      · rename_i rightNull
        obtain ⟨left', leftRan, _⟩ := bind_eq_ok.mp ran
        rw [references_untypedNull (Bool.and_eq_true_iff.mp rightNull).1]
        exact ⟨bindWith_resolves allowAggregates left left' leftRan, List.forall_mem_nil _⟩
      · simp only [bind_eq_ok] at ran
        obtain ⟨left', leftRan, right', rightRan, _⟩ := ran
        exact ⟨bindWith_resolves allowAggregates left left' leftRan,
          bindWith_resolves allowAggregates right right' rightRan⟩
  | .unary _ operand, result, ran | .extract _ operand, result, ran | .substring operand _ _, result, ran
  | .cast operand _ _ _, result, ran | .like operand _ _, result, ran => by
    rw [bindWith] at ran
    obtain ⟨operand', operandRan, _⟩ := bind_eq_ok.mp ran
    exact bindWith_resolves allowAggregates operand operand' operandRan
  | .between value lower upper, result, ran => by
    simp only [bindWith, bind_eq_ok] at ran
    obtain ⟨value', valueRan, lower', lowerRan, upper', upperRan, _⟩ := ran
    rw [references, allResolve_append, allResolve_append]
    exact ⟨⟨bindWith_resolves allowAggregates value value' valueRan,
      bindWith_resolves allowAggregates lower lower' lowerRan⟩,
      bindWith_resolves allowAggregates upper upper' upperRan⟩
  | .aggregate _ argument, result, ran => by
    rw [bindWith] at ran
    split at ran
    · cases ran
    · split at ran
      · cases ran
      · obtain ⟨argument', argumentRan, _⟩ := bind_eq_ok.mp ran
        exact bindWith_resolves false argument argument' argumentRan
  | .inList value list _, result, ran => by
    rw [bindWith] at ran
    split at ran
    · cases ran
    · simp only [bind_eq_ok] at ran
      obtain ⟨value', valueRan, items, itemsRan, _⟩ := ran
      rw [references, allResolve_append]
      exact ⟨bindWith_resolves allowAggregates value value' valueRan,
        bindItems_resolves allowAggregates list value' none items itemsRan⟩
  | .caseWhen condition result' rest, result, ran => by
    simp only [bindWith, bind_eq_ok] at ran
    obtain ⟨condition', conditionRan, _, _, bound, resultRan, branches, branchesRan, _⟩ := ran
    rw [references, allResolve_append, allResolve_append]
    exact ⟨⟨bindWith_resolves allowAggregates condition condition' conditionRan,
      bindWith_resolves allowAggregates result' bound resultRan⟩,
      bindBranches_resolves allowAggregates rest branches branchesRan⟩

theorem bindItems_resolves (allowAggregates : Bool) : (list : AstExprList Statement) → (value : Expression) →
    (sofar result : Option Expression) → bindItems resolve allowAggregates value sofar list = .ok result →
    AllResolve resolve (listReferences list)
  | .nil, _, _, _, _ => List.forall_mem_nil _
  | .cons head tail, value, sofar, result, ran => by
    simp only [bindItems, bind_eq_ok] at ran
    obtain ⟨head', headRan, _, _, next, _, tailRan⟩ := ran
    rw [listReferences, allResolve_append]
    refine ⟨?_, bindItems_resolves allowAggregates tail value (some next) result tailRan⟩
    split at headRan
    · rename_i untyped
      rw [references_untypedNull untyped]
      exact List.forall_mem_nil _
    · exact bindWith_resolves allowAggregates head head' headRan

theorem bindBranches_resolves (allowAggregates : Bool) : (branches : AstBranches Statement) →
    (result : List (Expression × Expression) × Option Expression) →
    bindBranches resolve allowAggregates branches = .ok result → AllResolve resolve (branchReferences branches)
  | .done, _, _ => List.forall_mem_nil _
  | .otherwise expression, result, ran => by
    simp only [bindBranches, bind_eq_ok] at ran
    obtain ⟨bound, boundRan, _⟩ := ran
    exact bindWith_resolves allowAggregates expression bound boundRan
  | .when condition expression rest, result, ran => by
    simp only [bindBranches, bind_eq_ok] at ran
    obtain ⟨condition', conditionRan, _, _, bound, boundRan, branches, branchesRan, _⟩ := ran
    rw [branchReferences, allResolve_append, allResolve_append]
    exact ⟨⟨bindWith_resolves allowAggregates condition condition' conditionRan,
      bindWith_resolves allowAggregates expression bound boundRan⟩,
      bindBranches_resolves allowAggregates rest branches branchesRan⟩

end

end Resolved

/-- An unqualified name with its source's alias in front. -/
def qualify (name tableAlias : String) (reference : Reference) : Reference :=
  if reference = ⟨name, none⟩ then ⟨name, some tableAlias⟩ else reference

/-- An unqualified name binds, and it binds to what the qualified name does wherever it stands. -/
structure BindsAlike (sources : List JoinSource) (name tableAlias : String) : Prop where
  column : SameColumn (.join sources) name tableAlias
  expressions : ∀ (allowAggregates : Bool) (expression : SqlExpr),
    bind (.join sources) allowAggregates (mapReferences (qualify name tableAlias) expression) =
      bind (.join sources) allowAggregates expression
  statements : ∀ (stmt : AstSelectStatement) (clause : AstJoinClause AstSelectStatement) (schemas : List Schema),
    stmt.join = some clause → joinSources clause schemas = sources →
      bindJoinQuery (mapStatementReferences (qualify name tableAlias) stmt) schemas = bindJoinQuery stmt schemas

/-- A name is rejected as ambiguous between two sources that have it. -/
def RejectedAsAmbiguous (sources : List JoinSource) (name : String) : Prop :=
  ∃ found ∈ sources, ∃ again ∈ sources, (found.schema.findField name).isSome = true ∧
    (again.schema.findField name).isSome = true ∧
    bindColumnRef (.join sources) ⟨name, none⟩ =
      .error (ambiguousColumn name found.tableAlias again.tableAlias) ∧
    (∀ selectList, (bindGroupKey (.join sources) selectList ⟨name, none⟩).map GroupKey.expr =
      .error (ambiguousColumn name found.tableAlias again.tableAlias)) ∧
    ∀ (allowAggregates : Bool) (expression : SqlExpr), ⟨name, none⟩ ∈ references expression →
      ∀ bound, bind (.join sources) allowAggregates expression ≠ .ok bound

theorem qualify_cases (name tableAlias : String) (reference : Reference) :
    qualify name tableAlias reference = reference ∨
      reference = ⟨name, none⟩ ∧ qualify name tableAlias reference = ⟨name, some tableAlias⟩ := by
  by_cases isName : reference = ⟨name, none⟩
  · exact .inr ⟨isName, if_pos isName⟩
  · exact .inl (if_neg isName)

theorem interchangeable_qualify {sources : List JoinSource} {name tableAlias : String}
    (same : SameColumn (.join sources) name tableAlias) :
    Interchangeable (.join sources) (qualify name tableAlias) := by
  obtain ⟨column, plainRan, qualifiedRan⟩ := same
  have isColumn : namesColumn (.join sources) ⟨name, none⟩ = .ok true := by
    simp only [bindColumnRef, bind_eq_ok] at plainRan
    obtain ⟨found, lookedUp, resolved⟩ := plainRan
    cases found with
    | none => cases resolved
    | some place =>
      simp only [namesColumn, findFieldByPlainName, lookedUp]
      rfl
  constructor
  · intro reference
    rcases qualify_cases name tableAlias reference with unchanged | ⟨rfl, qualified⟩
    · rw [unchanged]
    · rw [qualified]
  · intro reference
    rcases qualify_cases name tableAlias reference with unchanged | ⟨rfl, qualified⟩
    · rw [unchanged]
    · rw [qualified, plainRan, qualifiedRan]
  · intro selectList reference
    rcases qualify_cases name tableAlias reference with unchanged | ⟨rfl, qualified⟩
    · rw [unchanged]
    · have isQualified : namesColumn (.join sources) ⟨name, some tableAlias⟩ = .ok true := rfl
      rw [qualified, bindGroupKey, bindGroupKey, isColumn, isQualified, plainRan, qualifiedRan]

theorem bindsAlike_of_same {sources : List JoinSource} {name tableAlias : String}
    (same : SameColumn (.join sources) name tableAlias) : BindsAlike sources name tableAlias where
  column := same
  expressions := bind_mapReferences (interchangeable_qualify same)
  statements := by
    rintro stmt clause schemas isJoin rfl
    exact bindJoinQuery_mapReferences isJoin (interchangeable_qualify same)

theorem rejectedAsAmbiguous {sources : List JoinSource} {name : String} {first second : Nat}
    {one other : JoinSource} (before : first < second) (isFirst : sources[first]? = some one)
    (isSecond : sources[second]? = some other) (inOne : (one.schema.findField name).isSome = true)
    (inOther : (other.schema.findField name).isSome = true) : RejectedAsAmbiguous sources name := by
  obtain ⟨found, isFound, again, isAgain, inFound, inAgain, ran⟩ :=
    findPlain_ambiguous before isFirst isSecond inOne inOther
  have rejected : bindColumnRef (.join sources) ⟨name, none⟩ =
      .error (ambiguousColumn name found.tableAlias again.tableAlias) := by
    simp only [bindColumnRef, ran]
    rfl
  refine ⟨found, isFound, again, isAgain, inFound, inAgain, rejected, fun selectList => ?_,
    fun allowAggregates expression written bound boundRan => ?_⟩
  · simp only [bindGroupKey, namesColumn, findFieldByPlainName, ran]
    rfl
  · obtain ⟨column, resolved⟩ := bindWith_resolves allowAggregates expression bound boundRan _ written
    rw [rejected] at resolved
    cases resolved

/-- An unqualified name of one source binds like the qualified one exactly if its source is the first of its
alias and no semi- or anti-joined source before it reaches the column's index; a name of several sources is
ambiguous. -/
theorem unqualified_iff (sources : List JoinSource) (name : String) :
    (∀ number source position, OnlyIn sources name number source position →
      (BindsAlike sources name source.tableAlias ↔ Reached sources number source position)) ∧
    ∀ (first second : Nat) (one other : JoinSource), first < second → sources[first]? = some one →
      sources[second]? = some other → (one.schema.findField name).isSome = true →
      (other.schema.findField name).isSome = true → RejectedAsAmbiguous sources name := by
  refine ⟨fun number source position only => ?_, fun _ _ _ _ => rejectedAsAmbiguous⟩
  rw [← sameColumn_iff only]
  exact ⟨BindsAlike.column, bindsAlike_of_same⟩

def accounts : JoinSource := ⟨"a", [⟨"k", int64Type false⟩], .inner⟩

def payments : JoinSource := ⟨"b", [⟨"k", int64Type false⟩, ⟨"x", int64Type false⟩], .leftSemi⟩

def refunds : JoinSource := ⟨"c", [⟨"w", int64Type false⟩, ⟨"k", int64Type false⟩], .leftSemi⟩

theorem unqualified_iff_accounts :
    BindsAlike [accounts, payments] "x" "b" ∧ RejectedAsAmbiguous [accounts, payments] "k" := by
  have only : OnlyIn [accounts, payments] "x" 1 payments 1 := by
    refine ⟨rfl, rfl, fun another other isOther has => ?_⟩
    rcases another with _ | _ | _
    · obtain rfl := Option.some.inj isOther
      cases has
    · rfl
    · cases isOther
  have reached : Reached [accounts, payments] 1 payments 1 := by
    constructor
    · intro earlier before other isOther
      obtain rfl := Nat.lt_one_iff.mp before
      obtain rfl := Option.some.inj isOther
      decide
    · intro earlier before other isOther drops
      obtain rfl := Nat.lt_one_iff.mp before
      obtain rfl := Option.some.inj isOther
      cases drops
  exact ⟨((unqualified_iff _ _).1 1 payments 1 only).mpr reached,
    (unqualified_iff _ _).2 0 1 accounts payments Nat.zero_lt_one rfl rfl rfl rfl⟩

/-- `SELECT * FROM a WHERE EXISTS (SELECT * FROM b WHERE a.k = b.k) AND EXISTS (SELECT * FROM c WHERE a.k = c.k
AND w > 1)`: the index of `w` is that of `b.k`, and `b` has no `w`. -/
theorem unqualified_covered :
    ¬ ∀ (sources : List JoinSource) (name : String) (number : Nat) (source : JoinSource) (position : Nat),
      OnlyIn sources name number source position →
        ∃ column, bindColumnRef (.join sources) ⟨name, none⟩ = .ok column ∧
          bindColumnRef (.join sources) ⟨name, some source.tableAlias⟩ = .ok column := by
  intro alike
  have only : OnlyIn [accounts, payments, refunds] "w" 2 refunds 0 := by
    refine ⟨rfl, rfl, fun another other isOther has => ?_⟩
    rcases another with _ | _ | _ | _
    · obtain rfl := Option.some.inj isOther
      cases has
    · obtain rfl := Option.some.inj isOther
      cases has
    · rfl
    · cases isOther
  obtain ⟨column, plainRan, _⟩ := alike _ _ _ _ _ only
  have unknown : bindColumnRef (.join [accounts, payments, refunds]) ⟨"w", none⟩ = .error (unknownColumn "w") := rfl
  rw [unknown] at plainRan
  cases plainRan

end KernelLake.UnqualifiedNames
