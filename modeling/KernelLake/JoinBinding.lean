import KernelLake.LogicalPlanner
import KernelLake.QueryBindingProofs

/-!
Names in a join chain and the columns they denote.

The binder numbers columns while it walks the list of sources; the joins compute their schemas on
their own. Both leave out what semi and anti joins bring in, so a column of any other source is found
at its index, made nullable if an outer join brought it in.
-/

namespace KernelLake.JoinBinding

open KernelLake.Types KernelLake.Expressions KernelLake.LogicalPlans KernelLake.SqlAst KernelLake.Binder
open KernelLake.QueryBinding KernelLake.LogicalPlanner KernelLake.BindingProofs
open KernelLake.QueryBindingProofs KernelLake.Library.Results

/-! ## What a reference denotes -/

/-- The source and the column a reference denotes: for a qualified name the first source with the
qualifier as its alias, for a plain name the one source that has a column of the name. -/
inductive Denotes (sources : List JoinSource) : Reference → Nat → Nat → Prop
  | qualified {table name : String} {number position : Nat} {source : JoinSource}
      (found : sources[number]? = some source) (isAlias : source.tableAlias = table)
      (first : ∀ earlier < number, ∀ other, sources[earlier]? = some other → other.tableAlias ≠ table)
      (column : source.schema.findField name = some position) :
      Denotes sources ⟨name, some table⟩ number position
  | plain {name : String} {number position : Nat} {source : JoinSource}
      (found : sources[number]? = some source) (column : source.schema.findField name = some position)
      (unique : ∀ another other, sources[another]? = some other →
        (other.schema.findField name).isSome = true → another = number) :
      Denotes sources ⟨name, none⟩ number position

/-- Where the columns of a source start. -/
def offsetOf (sources : List JoinSource) (number : Nat) : Nat :=
  ((sources.take number).map JoinSource.span).sum

theorem offsetOf_zero (sources : List JoinSource) : offsetOf sources 0 = 0 := rfl

theorem offsetOf_succ (source : JoinSource) (rest : List JoinSource) (number : Nat) :
    offsetOf (source :: rest) (number + 1) = source.span + offsetOf rest number := by
  simp [offsetOf]

/-- A column expression for the column at a place among the sources. -/
def IsColumnAt (sources : List JoinSource) (offset number position : Nat) (column : Expression) : Prop :=
  ∃ source field, sources[number]? = some source ∧ source.schema[position]? = some field ∧
    column = .column field.name (offset + offsetOf sources number + position) field.type

theorem resolveColumn_eq_ok {schema : Schema} {offset : Nat} {name : String} {column : Expression}
    (ran : resolveColumn schema offset name = .ok column) :
    ∃ position field, schema.findField name = some position ∧ schema[position]? = some field ∧
      column = .column field.name (offset + position) field.type := by
  unfold resolveColumn at ran
  split at ran
  · cases ran
  · rename_i position found
    split at ran
    · cases ran
    · rename_i field isField
      exact ⟨position, field, found, isField, (Except.ok.inj ran).symm⟩

theorem resolveQualified_denotes {table name : String} {sources : List JoinSource} {offset : Nat}
    {column : Expression} (ran : resolveQualified table name offset sources = some (.ok column)) :
    ∃ number position, Denotes sources ⟨name, some table⟩ number position ∧
      IsColumnAt sources offset number position column := by
  induction sources generalizing offset with
  | nil => cases ran
  | cons source rest hypothesis =>
    unfold resolveQualified at ran
    split at ran
    · rename_i isAlias
      obtain ⟨position, field, found, isField, rfl⟩ := resolveColumn_eq_ok (Option.some.inj ran)
      refine ⟨0, position, .qualified rfl isAlias (fun earlier before => by omega) found, ?_⟩
      exact ⟨source, field, rfl, isField, by rw [offsetOf_zero, Nat.add_zero]⟩
    · rename_i otherAlias
      obtain ⟨number, position, denotes, place⟩ := hypothesis ran
      obtain ⟨found, isField, inRest, atPosition, rfl⟩ := place
      refine ⟨number + 1, position, ?_, found, isField, inRest, atPosition, ?_⟩
      · cases denotes with
        | qualified holder isAlias first column =>
          refine .qualified holder isAlias (fun earlier before other held => ?_) column
          cases earlier with
          | zero =>
            obtain rfl := Option.some.inj held
            exact otherAlias
          | succ earlier => exact first earlier (by omega) other held
      · rw [offsetOf_succ]
        congr 1
        omega

/-- A successful lookup of a plain name means that at most one source has it. -/
theorem findPlain_unique {name : String} {sources : List JoinSource} {offset : Nat}
    {found result : Option (Nat × String)} (ran : findPlain name offset found sources = .ok result) :
    (found.isSome = true → ∀ source ∈ sources, source.schema.findField name = none) ∧
      ∀ (first second : Nat) (one other : JoinSource), sources[first]? = some one →
        sources[second]? = some other → (one.schema.findField name).isSome = true →
          (other.schema.findField name).isSome = true → first = second := by
  induction sources generalizing offset found with
  | nil => simp
  | cons source rest hypothesis =>
    unfold findPlain at ran
    split at ran
    · rename_i absent
      obtain ⟨noneLeft, unique⟩ := hypothesis ran
      constructor
      · intro already other member
        rcases List.mem_cons.mp member with rfl | inRest
        · exact absent
        · exact noneLeft already other inRest
      · intro first second one other isFirst isSecond inOne inOther
        cases first with
        | zero =>
          obtain rfl := Option.some.inj isFirst
          rw [absent] at inOne
          cases inOne
        | succ first =>
          cases second with
          | zero =>
            obtain rfl := Option.some.inj isSecond
            rw [absent] at inOther
            cases inOther
          | succ second => rw [unique first second one other isFirst isSecond inOne inOther]
    · rename_i index present
      split at ran
      · cases ran
      · obtain ⟨noneLeft, _⟩ := hypothesis ran
        have nowhereElse : ∀ other ∈ rest, other.schema.findField name = none := noneLeft rfl
        constructor
        · intro already
          cases already
        · intro first second one other isFirst isSecond inOne inOther
          have onlyFirst {place : Nat} {holder : JoinSource} (held : (source :: rest)[place]? = some holder)
              (has : (holder.schema.findField name).isSome = true) : place = 0 := by
            cases place with
            | zero => rfl
            | succ place =>
              rw [nowhereElse holder (List.mem_of_getElem? held)] at has
              cases has
          rw [onlyFirst isFirst inOne, onlyFirst isSecond inOther]

theorem resolveAt_column {target : Nat} {name : String} {sources : List JoinSource} {offset : Nat}
    {column : Expression} (ran : resolveAt target name offset sources = .ok column) :
    ∃ number position source, sources[number]? = some source ∧
      source.schema.findField name = some position ∧ IsColumnAt sources offset number position column := by
  induction sources generalizing offset with
  | nil => cases ran
  | cons source rest hypothesis =>
    unfold resolveAt at ran
    split at ran
    · obtain ⟨position, field, found, isField, rfl⟩ := resolveColumn_eq_ok ran
      exact ⟨0, position, source, rfl, found, source, field, rfl, isField,
        by rw [offsetOf_zero, Nat.add_zero]⟩
    · obtain ⟨number, position, holder, held, found, holder', field, held', isField, rfl⟩ := hypothesis ran
      refine ⟨number + 1, position, holder, held, found, holder', field, held', isField, ?_⟩
      rw [offsetOf_succ]
      congr 1
      omega

/-- What a reference resolves to in a chain is the column it denotes, at that column's place. -/
theorem bindColumnRef_denotes {sources : List JoinSource} {reference : Reference} {column : Expression}
    (ran : bindColumnRef (.join sources) reference = .ok column) :
    ∃ number position, Denotes sources reference number position ∧
      IsColumnAt sources 0 number position column := by
  obtain ⟨name, table⟩ := reference
  cases table with
  | some table =>
    simp only [bindColumnRef] at ran
    cases resolved : resolveQualified table name 0 sources with
    | none =>
      rw [resolved] at ran
      cases ran
    | some outcome =>
      rw [resolved, Option.getD_some] at ran
      rw [ran] at resolved
      exact resolveQualified_denotes resolved
  | none =>
    simp only [bindColumnRef, bind_eq_ok] at ran
    obtain ⟨found, lookedUp, ran⟩ := ran
    cases found with
    | none => cases ran
    | some place =>
      obtain ⟨number, position, source, held, present, isColumn⟩ := resolveAt_column ran
      refine ⟨number, position, .plain held present (fun another other isOther has => ?_), isColumn⟩
      exact (findPlain_unique lookedUp).2 another number other source isOther held has (by simp [present])

/-- A reference resolves to a bare column. -/
theorem bindColumnRef_column {scope : Scope} {reference : Reference} {column : Expression}
    (ran : bindColumnRef scope reference = .ok column) :
    ∃ name index type, column = .column name index type := by
  cases scope with
  | join sources =>
    obtain ⟨number, position, _, source, field, _, _, rfl⟩ := bindColumnRef_denotes ran
    exact ⟨_, _, _, rfl⟩
  | table schema =>
    obtain ⟨name, table⟩ := reference
    cases table with
    | some table => cases ran
    | none =>
      obtain ⟨position, field, _, _, rfl⟩ := resolveColumn_eq_ok ran
      exact ⟨_, _, _, rfl⟩

/-! ## The schema of a chain -/

/-- The field a join delivers for a field of its right side. -/
def deliveredField (joinType : JoinType) (field : Field) : Field :=
  if joinType = .leftOuter then widened field else field

/-- The fields a join delivers for its right side. -/
def deliveredFields (joinType : JoinType) (schema : Schema) : Schema :=
  if keepsRight joinType then schema.map (deliveredField joinType) else []

theorem joinSchema_eq (left right : Schema) (joinType : JoinType) :
    joinSchema left right joinType = left ++ deliveredFields joinType right := by
  cases joinType with
  | inner =>
    have unchanged : deliveredField .inner = id := by
      funext field
      rfl
    simp [joinSchema, deliveredFields, keepsRight, unchanged]
  | leftOuter =>
    have isWidened : deliveredField .leftOuter = widened := by
      funext field
      rfl
    simp [joinSchema, deliveredFields, keepsRight, isWidened]
  | leftSemi => simp [joinSchema, deliveredFields, keepsRight]
  | leftAnti => simp [joinSchema, deliveredFields, keepsRight]

def chainSchema (sources : List JoinSource) : Schema :=
  sources.flatMap (fun source => deliveredFields source.joinType source.schema)

theorem length_deliveredFields (source : JoinSource) :
    (deliveredFields source.joinType source.schema).length = source.span := by
  unfold deliveredFields JoinSource.span
  split <;> simp

/-- A delivered column stands in the chain's schema at the index the binder gives it. -/
theorem chainSchema_at {sources : List JoinSource} {number position : Nat} {source : JoinSource}
    {field : Field} (held : sources[number]? = some source) (keeps : keepsRight source.joinType = true)
    (isField : source.schema[position]? = some field) :
    (chainSchema sources)[offsetOf sources number + position]? =
      some (deliveredField source.joinType field) := by
  induction sources generalizing number with
  | nil => cases held
  | cons first rest hypothesis =>
    simp only [chainSchema, List.flatMap_cons] at hypothesis ⊢
    cases number with
    | zero =>
      obtain rfl := Option.some.inj held
      have inFirst : position < (deliveredFields first.joinType first.schema).length := by
        rw [length_deliveredFields, JoinSource.span, if_pos keeps]
        exact (List.getElem?_eq_some_iff.mp isField).1
      rw [offsetOf_zero, Nat.zero_add, List.getElem?_append_left inFirst, deliveredFields, if_pos keeps,
        List.getElem?_map, isField]
      rfl
    | succ number =>
      rw [offsetOf_succ, Nat.add_assoc, ← length_deliveredFields,
        List.getElem?_append_right (Nat.le_add_right _ _), Nat.add_sub_cancel_left]
      exact hypothesis held

theorem outputSchema_filterIf (predicate : Option Expression) (plan : LogicalPlan) :
    (filterIf predicate plan).outputSchema = plan.outputSchema := by
  cases predicate <;> rfl

theorem outputSchema_plan (paths : List String) (input : JoinInput) :
    (input.plan paths).outputSchema = input.schema := by
  cases input <;> rfl

theorem outputSchema_joinChain (plan : LogicalPlan) (steps : List (BoundJoinStep × JoinInput)) :
    (joinChain plan steps).outputSchema =
      plan.outputSchema ++ steps.flatMap (fun step => deliveredFields step.1.joinType step.2.schema) := by
  induction steps generalizing plan with
  | nil => simp [joinChain]
  | cons step rest hypothesis =>
    rw [joinChain, hypothesis, List.flatMap_cons, joinStep, LogicalPlan.outputSchema, joinSchema_eq,
      outputSchema_filterIf, outputSchema_plan, List.append_assoc]

theorem joinTypes_bindJoinSteps {scope : Scope} {count : Nat}
    {steps : List (AstJoinStep AstSelectStatement × Schema)} {bound : List BoundJoinStep}
    (ran : bindJoinSteps scope count steps = .ok bound) :
    bound.map BoundJoinStep.joinType = steps.map (fun step => step.1.joinType) := by
  induction steps generalizing count bound with
  | nil =>
    rw [← pure_eq_ok.mp ran]
    rfl
  | cons step rest hypothesis =>
    simp only [bindJoinSteps, bind_eq_ok, pure_eq_ok] at ran
    obtain ⟨_, _, _, _, others, othersRan, rfl⟩ := ran
    simp [hypothesis othersRan]

/-- The joins of a bound query deliver what its sources say. -/
theorem outputSchema_buildJoinSource {scope : Scope} {count : Nat}
    {clause : AstJoinClause AstSelectStatement} {first : JoinInput} {rest : List JoinInput}
    {steps : List BoundJoinStep} (sameLength : rest.length = clause.steps.length)
    (ran : bindJoinSteps scope count (clause.steps.zip (rest.map JoinInput.schema)) = .ok steps) :
    (buildJoinSource ⟨clause.first.paths, steps⟩ first rest).outputSchema =
      chainSchema (joinSources clause ((first :: rest).map JoinInput.schema)) := by
  have types := joinTypes_bindJoinSteps ran
  have firstDelivered : deliveredFields .inner first.schema = first.schema := by
    have unchanged : deliveredField .inner = id := by
      funext field
      rfl
    simp [deliveredFields, keepsRight, unchanged]
  rw [buildJoinSource, outputSchema_joinChain]
  simp only [List.map_cons, joinSources, chainSchema, List.flatMap_cons, firstDelivered,
    LogicalPlan.outputSchema, LogicalScan.make, List.append_cancel_left_eq]
  clear ran firstDelivered
  generalize clause.steps = written at types sameLength
  induction rest generalizing written steps with
  | nil => simp
  | cons input rest hypothesis =>
    cases written with
    | nil => cases sameLength
    | cons step written =>
      cases steps with
      | nil => simp at types
      | cons bound steps =>
        simp only [List.map_cons, List.zip_cons_cons, List.cons.injEq] at types
        simp only [List.map_cons, List.zip_cons_cons, List.flatMap_cons, types.1]
        rw [hypothesis written types.2 (by simpa using sameLength)]

/-! ## Clauses -/

/-- Columns that read what references among the written ones denote. What a semi or anti join brings
in is not delivered, and nothing is said about where such a column is read. -/
def Reads (sources : List JoinSource) (schema : Schema) (written : List Reference)
    (uses : List ColumnUse) : Prop :=
  ∀ use ∈ uses, ∃ reference ∈ written, ∃ number position source field,
    Denotes sources reference number position ∧ sources[number]? = some source ∧
      source.schema[position]? = some field ∧ use.name = field.name ∧ use.type = field.type ∧
      (keepsRight source.joinType = true →
        schema[use.index]? = some (deliveredField source.joinType field))

/-- The columns of all sources in order, each with its source. -/
def allColumns (sources : List JoinSource) : List (JoinSource × Field) :=
  sources.flatMap (fun source => source.schema.map (Prod.mk source))

/-- A select item that reads one column of a source under its own name. -/
def ReadsField (schema : Schema) (column : JoinSource × Field) (item : NamedExpression) : Prop :=
  item.name = column.2.name ∧ ∃ index, item.expr = .column column.2.name index column.2.type ∧
    (keepsRight column.1.joinType = true →
      schema[index]? = some (deliveredField column.1.joinType column.2))

/-- Every clause of a bound query reads the columns its names denote, in a row of the given schema. The
sort keys of an aggregate query are columns of its output instead. -/
structure IndexCorrect (stmt : AstSelectStatement) (sources : List JoinSource) (schema : Schema)
    (query : BoundQuery) : Prop where
  selectList :
    (∃ item, stmt.selectList = [item] ∧ isStar item.expr = true ∧
      List.Forall₂ (ReadsField schema) (allColumns sources) query.selectList) ∨
    List.Forall₂ (fun item bound => Reads sources schema (references item.expr) (columnUses bound.expr))
      stmt.selectList query.selectList
  condition : ∀ bound, query.condition = some bound → ∃ written, stmt.condition = some written ∧
    Reads sources schema (references written) (columnUses bound)
  groupBy : List.Forall₂ (fun written bound => Reads sources schema (references written) (columnUses bound) ∨
    ∃ item ∈ query.selectList, bound = item.expr) stmt.groupBy query.groupBy
  having : ∀ bound, query.having = some bound → ∃ written, stmt.having = some written ∧
    Reads sources schema (references written) (columnUses bound)
  orderBy : query.isAggregateQuery = false →
    List.Forall₂ (fun item key => Reads sources schema (references item.expr) (columnUses key.expr))
      stmt.orderBy query.orderBy
  orderByOutput : query.isAggregateQuery = true → ∀ key ∈ query.orderBy, ∃ name index type,
    key.expr = .column name index type ∧ query.outputSchema[index]? = some ⟨name, type⟩

section Clauses

variable {sources : List JoinSource}

/-- A column at its place reads its field in the chain's row. -/
theorem reads_of_sourced {written : List Reference} {uses : List ColumnUse}
    (sourced : Sourced (bindColumnRef (.join sources)) written uses) :
    Reads sources (chainSchema sources) written uses := by
  intro use member
  obtain ⟨reference, inWritten, column, resolved, inColumn⟩ := sourced use member
  obtain ⟨number, position, denotes, source, field, held, isField, rfl⟩ := bindColumnRef_denotes resolved
  obtain rfl := List.mem_singleton.mp inColumn
  refine ⟨reference, inWritten, number, position, source, field, denotes, held, isField, rfl, rfl,
    fun keeps => ?_⟩
  rw [Nat.zero_add]
  exact chainSchema_at held keeps isField

theorem reads_bind {Statement : Type} {allowAggregates : Bool} {expression : AstExpr Statement}
    {bound : Expression} (ran : bind (.join sources) allowAggregates expression = .ok bound) :
    Reads sources (chainSchema sources) (references expression) (columnUses bound) :=
  reads_of_sourced (bindWith_sourced allowAggregates expression bound ran)

theorem readsField_starItems (before : List JoinSource) (rest : List JoinSource)
    (isAll : sources = before ++ rest) :
    List.Forall₂ (ReadsField (chainSchema sources)) (allColumns rest)
      ((sourceFields (offsetOf sources before.length) rest).map
        (fun (field, index) => ⟨.column field.name index field.type, field.name⟩)) := by
  induction rest generalizing before with
  | nil => exact .nil
  | cons source rest hypothesis =>
    have held : sources[before.length]? = some source := by simp [isAll]
    have nextOffset : offsetOf sources before.length + source.span =
        offsetOf sources (before ++ [source]).length := by
      simp [offsetOf, List.take_add_one, held]
    have tail := hypothesis (before ++ [source]) (by simp [isAll])
    rw [← nextOffset] at tail
    simp only [allColumns, List.flatMap_cons, sourceFields, List.map_append] at tail ⊢
    refine List.rel_append ?_ tail
    rw [List.forall₂_map_left_iff, List.forall₂_map_right_iff, List.forall₂_iff_get]
    refine ⟨by simp [fieldsFrom], fun position inSchema inFields => ⟨?_, ?_⟩⟩
    · simp [fieldsFrom]
    · refine ⟨offsetOf sources before.length + position, by simp [fieldsFrom], fun keeps => ?_⟩
      exact chainSchema_at held keeps (List.getElem?_eq_getElem inSchema)

theorem indexCorrect_of_clauses {stmt : AstSelectStatement} {isAggregateQuery : Bool} {query : BoundQuery}
    {groupReferences : List Reference} {keys : List GroupKey}
    (clauses : ClausesBound stmt (.join sources) isAggregateQuery query groupReferences keys) :
    IndexCorrect stmt sources (chainSchema sources) query where
  selectList := by
    rcases bindSelectList_eq_ok clauses.selectList with ⟨item, isItem, star, isStarred⟩ | bound
    · refine .inl ⟨item, isItem, star, ?_⟩
      rw [isStarred]
      exact readsField_starItems [] sources rfl
    · exact .inr (bound.imp (fun item bound itemBound => reads_bind itemBound.expr))
  condition bound isBound := by
    rcases optionMapM_eq_ok.mp clauses.condition with ⟨_, absent⟩ | ⟨written, image, isWritten, isImage, ran⟩
    · rw [absent] at isBound
      cases isBound
    · rw [isImage] at isBound
      obtain rfl := Option.some.inj isBound
      exact ⟨written, isWritten, reads_bind (bindCondition_eq_ok ran).2.1⟩
  groupBy := by
    have written := mapM_eq_ok.mp clauses.keysWritten
    have bound := mapM_eq_ok.mp clauses.keysBound
    rw [clauses.groupBy, List.forall₂_map_right_iff]
    clear clauses
    generalize stmt.groupBy = expressions at written
    induction written generalizing keys with
    | nil =>
      cases bound
      exact .nil
    | @cons expression reference _ _ isReference _ hypothesis =>
      cases bound with
      | @cons _ key _ _ ran rest =>
        refine .cons ?_ (hypothesis rest)
        rcases bindGroupKey_eq_ok ran with ⟨column, _⟩ | ⟨index, item, held, rfl, _, _⟩
        · left
          rw [groupByReference_eq_ok isReference]
          refine reads_of_sourced (fun use member => ?_)
          exact ⟨reference, List.mem_singleton.mpr rfl, key.expr, column, member⟩
        · exact .inr ⟨item, List.mem_of_getElem? held, rfl⟩
  having bound isBound := by
    rcases optionMapM_eq_ok.mp clauses.having with ⟨_, absent⟩ | ⟨written, image, isWritten, isImage, ran⟩
    · rw [absent] at isBound
      cases isBound
    · rw [isImage] at isBound
      obtain rfl := Option.some.inj isBound
      exact ⟨written, isWritten, reads_bind (bindHaving_eq_ok ran).1⟩
  orderBy plain := by
    rw [clauses.isAggregate] at plain
    refine (mapM_eq_ok.mp clauses.orderBy).imp (fun item key ran => ?_)
    simp only [bindOrderByItem, plain, Bool.false_eq_true, if_false, bind_eq_ok, pure_eq_ok] at ran
    obtain ⟨bound, boundRan, rfl⟩ := ran
    exact reads_bind boundRan
  orderByOutput aggregates := by
    rw [clauses.isAggregate] at aggregates
    intro key member
    obtain ⟨item, _, ran⟩ := exists_of_mem_mapM clauses.orderBy member
    simp only [bindOrderByItem, aggregates, if_true, bind_eq_ok, pure_eq_ok] at ran
    obtain ⟨bound, boundRan, rfl⟩ := ran
    obtain ⟨index, field, isField, rfl⟩ := bindOutputColumn_eq_ok boundRan
    exact ⟨field.name, index, field.type, rfl, isField⟩

end Clauses

/-- In a chain of joined sources every clause reads the columns its names denote: their indices lie in
the row the joins deliver, and the field there is the source's own, made nullable behind an outer
join. -/
theorem bindJoinQuery_indexCorrect {stmt : AstSelectStatement} {clause : AstJoinClause AstSelectStatement}
    {inputs : List JoinInput} {query : BoundQuery} (isJoin : stmt.join = some clause)
    (ran : bindJoinQuery stmt (inputs.map JoinInput.schema) = .ok query) :
    ∃ join first rest, query.join = some join ∧ inputs = first :: rest ∧
      IndexCorrect stmt (joinSources clause (inputs.map JoinInput.schema))
        (buildJoinSource join first rest).outputSchema query := by
  obtain ⟨found, firstSchema, restSchemas, steps, isFound, isCons, bound⟩ := bindJoinQuery_eq_ok ran
  obtain rfl := Option.some.inj (isJoin.symm.trans isFound)
  obtain ⟨first, rest, rfl, rfl, rfl⟩ := List.map_eq_cons_iff.mp isCons
  obtain ⟨groupReferences, keys, clauses⟩ := bound.clausesBound
  refine ⟨_, first, rest, bound.join, rfl, ?_⟩
  rw [outputSchema_buildJoinSource (by simpa using bound.sameLength) bound.stepsBound]
  exact indexCorrect_of_clauses clauses

def ordersInput : JoinInput := .table [⟨"k", int64Type false⟩, ⟨"v", int64Type false⟩] []

def linesInput : JoinInput := .table [⟨"k", int64Type false⟩, ⟨"w", int64Type false⟩] []

def onKey (table : String) : SqlExpr :=
  .binary .equal (.columnRef "k" (some "a")) (.columnRef "k" (some table))

/-- `SELECT a.v, c.w FROM a LEFT JOIN c ON a.k = c.k WHERE EXISTS (SELECT * FROM b WHERE a.k = b.k)`,
with the subquery already turned into a join, before the other one. -/
def outerStatement : AstSelectStatement where
  selectList := [⟨.columnRef "v" (some "a"), none⟩, ⟨.columnRef "w" (some "c"), none⟩]
  join := some ⟨⟨["a.parquet"], some "a"⟩,
    [{ source := ⟨["b.parquet"], some "b"⟩, condition := onKey "b", joinType := .leftSemi },
      { source := ⟨["c.parquet"], some "c"⟩, condition := onKey "c", joinType := .leftOuter }]⟩

/-- `SELECT b.k, COUNT(*) AS n FROM a JOIN b ON a.k = b.k GROUP BY b.k ORDER BY n` -/
def countedStatement : AstSelectStatement where
  selectList := [⟨.columnRef "k" (some "b"), none⟩, ⟨.countStar, some "n"⟩]
  join := some ⟨⟨["a.parquet"], some "a"⟩,
    [{ source := ⟨["b.parquet"], some "b"⟩, condition := onKey "b" }]⟩
  groupBy := [.columnRef "k" (some "b")]
  orderBy := [⟨.columnRef "n" none, true⟩]

theorem bindJoinQuery_indexCorrect_outer :
    ∃ query, bindJoinQuery outerStatement ([ordersInput, linesInput, linesInput].map JoinInput.schema) =
        .ok query ∧
      ∃ join first rest, query.join = some join ∧ [ordersInput, linesInput, linesInput] = first :: rest ∧
        IndexCorrect outerStatement
          (joinSources ⟨⟨["a.parquet"], some "a"⟩,
            [{ source := ⟨["b.parquet"], some "b"⟩, condition := onKey "b", joinType := .leftSemi },
              { source := ⟨["c.parquet"], some "c"⟩, condition := onKey "c", joinType := .leftOuter }]⟩
            ([ordersInput, linesInput, linesInput].map JoinInput.schema))
          (buildJoinSource join first rest).outputSchema query :=
  ⟨_, rfl, bindJoinQuery_indexCorrect rfl rfl⟩

/-- The sort key `n` of an aggregate query is the second output column; the second column of the joined
sources is `v`. -/
theorem orderBy_not_in_chain :
    ¬ ∀ (stmt : AstSelectStatement) (first : JoinInput) (rest : List JoinInput) (query : BoundQuery)
        (join : BoundJoin),
      bindJoinQuery stmt ((first :: rest).map JoinInput.schema) = .ok query → query.join = some join →
        ∀ key ∈ query.orderBy, ∀ use ∈ columnUses key.expr,
          ((buildJoinSource join first rest).outputSchema[use.index]?).map Field.name = some use.name := by
  intro correct
  have wrong := correct countedStatement ordersInput [linesInput] _ _ rfl rfl _ (List.mem_cons_self ..) _
    (List.mem_cons_self ..)
  revert wrong
  decide +kernel

end KernelLake.JoinBinding
