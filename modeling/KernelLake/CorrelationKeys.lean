import KernelLake.ScalarDecorrelation
import KernelLake.SubqueryResolutionProofs

/-!
What the key columns of a correlation have in common.

A column of tables that are only joined holds values of its type, and nulls. Two values of one type that is not
floating-point are identical if both of them equal a third value in a comparison that the binder accepts.
-/

namespace KernelLake.CorrelationKeys

open KernelLake.Types KernelLake.Expressions KernelLake.Evaluation KernelLake.LogicalPlans KernelLake.SqlAst
open KernelLake.Binder KernelLake.QueryBinding KernelLake.JoinBinding KernelLake.LogicalPlanner
open KernelLake.PlanSemantics KernelLake.JoinConditions KernelLake.ExistsRewriting
open KernelLake.CompiledStatements (overTables)
open KernelLake.ExistsRewritingProofs (joinSources_inputs)
open KernelLake.EvaluationTypes (isInteger)
open KernelLake.BoundTypes (sameKind_iff)
open KernelLake.SubqueryResolutionProofs KernelLake.Library.Relations KernelLake.Library.Results

/-! ## Values of a type -/

/-- Whether a value may stand in a column of a type that may be null. -/
def fits (type : DataType) (value : Value) : Bool :=
  Value.hasType { type with nullable := true } value

theorem fits_of_hasType {type : DataType} {value : Value} (held : Value.hasType type value = true) :
    fits type value = true := by
  cases value with
  | null => rfl
  | _ => exact held

@[simp] theorem fits_null (type : DataType) : fits type .null = true := rfl

/-- The values of a row fit the fields of a schema. -/
def RowFits (schema : Schema) (row : Row) : Prop :=
  List.Forall₂ (fun field value => fits field.type value = true) schema row

theorem rowFits_of_conforms {schema : Schema} {row : Row} (held : conforms schema row = true) :
    RowFits schema row := by
  induction schema generalizing row with
  | nil =>
    cases row with
    | nil => exact .nil
    | cons value values => cases held
  | cons field fields hypothesis =>
    cases row with
    | nil => cases held
    | cons value values =>
      simp only [conforms, Bool.and_eq_true] at held
      exact .cons (fits_of_hasType held.1) (hypothesis held.2)

theorem fits_delivered {joinType : JoinType} {field : Field} {value : Value} :
    fits (deliveredField joinType field).type value = fits field.type value := by
  unfold deliveredField
  split <;> rfl

theorem rowFits_delivered {joinType : JoinType} {schema : Schema} {row : Row} (held : RowFits schema row)
    (keeps : keepsRight joinType = true) : RowFits (deliveredFields joinType schema) row := by
  rw [deliveredFields, if_pos keeps, RowFits, List.forall₂_map_left_iff]
  exact held.imp fun field value valueFits => fits_delivered.trans valueFits

theorem rowFits_nulls (schema : Schema) : RowFits schema (List.replicate schema.length .null) := by
  induction schema with
  | nil => exact .nil
  | cons field fields hypothesis => exact .cons rfl hypothesis

/-- The rows of a join fit the schemas of both sides, as far as it delivers them. -/
theorem rowFits_joinRows {on : Row → Row → Bool} {joinType : JoinType} {schema other : Schema}
    {left right : List Row} (leftFits : ∀ row ∈ left, RowFits schema row)
    (rightFits : ∀ row ∈ right, RowFits other row) :
    ∀ row ∈ joinRows on joinType other.length left right, RowFits (schema ++ deliveredFields joinType other) row := by
  intro row member
  cases joinType with
  | inner =>
    obtain ⟨pair, inJoin, rfl⟩ := List.mem_map.mp member
    obtain ⟨inLeft, inRight, -⟩ := mem_innerJoin.mp inJoin
    exact List.rel_append (leftFits _ inLeft) (rowFits_delivered (rightFits _ inRight) rfl)
  | leftOuter =>
    obtain ⟨pair, inJoin, rfl⟩ := List.mem_map.mp member
    refine List.rel_append (leftFits _ (mem_outerJoin_left inJoin)) (rowFits_delivered ?_ rfl)
    cases paired : pair.2 with
    | none => exact rowFits_nulls other
    | some row => exact rightFits _ (mem_outerJoin_right inJoin paired)
  | leftSemi =>
    rw [deliveredFields, if_neg (by decide), List.append_nil]
    exact leftFits row (List.mem_of_mem_filter member)
  | leftAnti =>
    rw [deliveredFields, if_neg (by decide), List.append_nil]
    exact leftFits row (List.mem_of_mem_filter member)

/-! ## Rows of joined tables -/

section Sources

variable {catalog : Catalog} {tables : Tables}

theorem chainSchema_append (sources more : List JoinSource) :
    chainSchema (sources ++ more) = chainSchema sources ++ chainSchema more :=
  List.flatMap_append

theorem rowFits_tableRows (paths : List String) :
    ∀ row ∈ tableRows catalog tables paths, RowFits (catalog.schema paths) row :=
  fun row member => rowFits_of_conforms (tables.conforming _ _ row member)

/-- The source that a step brings in. -/
def stepSource (catalog : Catalog) (step : AstJoinStep AstSelectStatement) : JoinSource :=
  ⟨step.source.tableAlias.getD "", (catalog.joined step).schema, step.joinType⟩

/-- Steps over tables add columns with values of their types. -/
theorem rowFits_writtenJoins {scope : Scope} {schema : Schema} {left joined : List Row}
    {steps : List (AstJoinStep AstSelectStatement)} (tablesOnly : ∀ step ∈ steps, step.derivedSource = none)
    (leftFits : ∀ row ∈ left, RowFits schema row)
    (ran : writtenJoins tables scope left (steps.map (fun step => (step, catalog.joined step))) = .ok joined) :
    ∀ row ∈ joined, RowFits (schema ++ chainSchema (steps.map (stepSource catalog))) row := by
  induction steps generalizing schema left with
  | nil =>
    obtain rfl := pure_eq_ok.mp ran
    simpa [chainSchema] using leftFits
  | cons step steps hypothesis =>
    obtain ⟨isTable, othersTables⟩ := List.forall_mem_cons.mp tablesOnly
    rw [List.map_cons, writtenJoins, bind_eq_ok] at ran
    obtain ⟨condition, _, ran⟩ := ran
    have isJoined : catalog.joined step = catalog.table step.source.paths := by
      rw [Catalog.joined, isTable]
      rfl
    have stepFits : ∀ row ∈ joinRows (holdsOn condition) step.joinType (catalog.joined step).schema.length left
        (rows tables ((catalog.joined step).plan step.source.paths)),
        RowFits (schema ++ deliveredFields step.joinType (catalog.joined step).schema) row := by
      rw [isJoined]
      exact rowFits_joinRows leftFits (rowFits_tableRows _)
    have rest := hypothesis othersTables stepFits ran
    rwa [List.append_assoc] at rest

/-- The rows of joined tables fit what the joins deliver of their schemas. -/
theorem rowFits_sourceRows {stmt : AstSelectStatement} {joined : List Row} (tablesOnly : overTables stmt = true)
    (ran : sourceRows catalog tables stmt = .ok joined) :
    ∀ row ∈ joined, RowFits (chainSchema (sourcesOf catalog stmt)) row := by
  unfold sourceRows at ran
  unfold overTables at tablesOnly
  cases isJoin : stmt.join with
  | some clause =>
    simp only [isJoin] at ran tablesOnly
    have isSources : sourcesOf catalog stmt =
        tableSource catalog clause.first :: clause.steps.map (stepSource catalog) := by
      unfold sourcesOf
      rw [isJoin]
      exact joinSources_inputs clause
    rw [isSources]
    exact rowFits_writtenJoins (fun step member => by simpa using List.all_eq_true.mp tablesOnly step member)
      (fun row member => rowFits_delivered (rowFits_tableRows _ row member) rfl) ran
  | none =>
    simp only [isJoin, Option.isNone_iff_eq_none] at ran tablesOnly
    simp only [tablesOnly, pure_eq_ok] at ran
    subst ran
    intro row member
    have isSources : sourcesOf catalog stmt = [tableSource catalog stmt.source] := by
      unfold sourcesOf
      rw [isJoin, tablesOnly]
      rfl
    rw [isSources, chainSchema, List.flatMap_singleton]
    exact rowFits_delivered (rowFits_tableRows _ row member) rfl

/-- A name that the sources deliver is a column with values of its type. -/
theorem column_fits {sources : List JoinSource} {row : Row} {reference : Reference} {column : Expression}
    (kept : ∀ source ∈ sources, keepsRight source.joinType = true) (rowFits : RowFits (chainSchema sources) row)
    (ran : bindColumnRef (.join sources) reference = .ok column) :
    ∃ name index type, column = .column name index type ∧ index < row.length ∧
      fits type (row.getD index .raised) = true := by
  obtain ⟨number, position, _, source, field, held, isField, rfl⟩ := bindColumnRef_denotes ran
  have delivered := chainSchema_at held (kept source (List.mem_of_getElem? held)) isField
  rw [Nat.zero_add]
  obtain ⟨inSchema, isDelivered⟩ := List.getElem?_eq_some_iff.mp delivered
  have inRow : offsetOf sources number + position < row.length := rowFits.length_eq ▸ inSchema
  refine ⟨_, _, _, rfl, inRow, ?_⟩
  have valueFits := rowFits.get inSchema inRow
  simp only [List.get_eq_getElem] at valueFits
  rw [isDelivered, fits_delivered] at valueFits
  rwa [List.getD_eq_getElem _ _ inRow]

end Sources

/-! ## Equality of columns -/

/-- Whether an equality of two operands is `TRUE`, given their types and values. -/
def meets (type other : DataType) (value item : Value) : Bool :=
  if sameKind type other then compareValues value item = .ordered .eq
  else
    match promoteNumeric type other with
    | .ok common => compareValues (converted type common value) (converted other common item) = .ordered .eq
    | .error _ => false

theorem isTrue_combineEqual {left right result : Expression} (ran : combineBinary .equal left right = .ok result)
    (row : Row) :
    (eval result row).isTrue = meets left.resultType right.resultType (eval left row) (eval right row) := by
  obtain ⟨left', right', type, rfl, operands⟩ := combineEqual_eq_ok ran
  unfold meets
  rcases operands with ⟨same, rfl, rfl⟩ | ⟨different, leftNumeric, rightNumeric, common, promoted, leftRan, rightRan⟩
  · rw [if_pos same]
    exact isTrue_equal _ _
  · rw [if_neg (by simp [different]), promoted]
    simp only
    rw [← evalIn_castIfNeeded leftNumeric leftRan, ← evalIn_castIfNeeded rightNumeric rightRan]
    exact isTrue_equal _ _

theorem identical_of_equal {type : DataType} {value other : Value} (exact : isFloating type.id = false)
    (valueFits : fits type value = true) (otherFits : fits type other = true)
    (equal : compareValues value other = .ordered .eq) : value = other := by
  obtain ⟨id, nullable, precision, scale⟩ := type
  simp only at exact
  cases value with
  | null => cases other <;> simp [compareValues] at equal
  | raised => simp [compareValues] at equal
  | bool truth =>
    obtain rfl : id = .boolean := by simpa [fits, Value.hasType] using valueFits
    cases other with
    | bool otherTruth =>
      simp only [compareValues, comparePresent, Comparison.ordered.injEq] at equal
      rw [compare_eq_iff_eq.mp equal]
    | null | raised => simp [compareValues] at equal
    | _ => simp [fits, Value.hasType, integerFits, isFloating] at otherFits
  | int number =>
    cases other with
    | int otherNumber =>
      simp only [compareValues, comparePresent, Value.integerPayload, Comparison.ordered.injEq] at equal
      rw [compare_eq_iff_eq.mp equal]
    | null | raised => simp [compareValues] at equal
    | _ => cases id <;> simp_all [fits, Value.hasType, integerFits, isFloating]
  | double number => simp [fits, Value.hasType, exact] at valueFits
  | string text =>
    obtain rfl : id = .string := by simpa [fits, Value.hasType] using valueFits
    cases other with
    | string otherText =>
      simp only [compareValues, comparePresent, Comparison.ordered.injEq] at equal
      rw [← LinearOrder.compare_eq_compareOfLessAndEq] at equal
      rw [compare_eq_iff_eq.mp equal]
    | null | raised => simp [compareValues] at equal
    | _ => simp [fits, Value.hasType, integerFits, isFloating] at otherFits
  | date days =>
    obtain rfl : id = .date32 := by simpa [fits, Value.hasType] using valueFits
    cases other with
    | date otherDays =>
      simp only [compareValues, comparePresent, Value.integerPayload, Comparison.ordered.injEq] at equal
      rw [compare_eq_iff_eq.mp equal]
    | null | raised => simp [compareValues] at equal
    | _ => simp [fits, Value.hasType, integerFits, isFloating] at otherFits
  | timestamp micros =>
    obtain rfl : id = .timestamp := by simpa [fits, Value.hasType] using valueFits
    cases other with
    | timestamp otherMicros =>
      simp only [compareValues, comparePresent, Value.integerPayload, Comparison.ordered.injEq] at equal
      rw [compare_eq_iff_eq.mp equal]
    | null | raised => simp [compareValues] at equal
    | _ => simp [fits, Value.hasType, integerFits, isFloating] at otherFits
  | decimal unscaled digits =>
    obtain ⟨rfl, rfl⟩ : id = .decimal ∧ scale = some digits := by simpa [fits, Value.hasType] using valueFits
    cases other with
    | decimal otherUnscaled otherDigits =>
      obtain rfl : digits = otherDigits := by simpa [fits, Value.hasType] using otherFits
      simp only [compareValues, comparePresent, Value.integerPayload, Value.doublePayload, Option.map_none,
        decimalScale, asFraction, compareFractions, Comparison.ordered.injEq] at equal
      have positive := tenTo_pos digits
      have positive' := tenTo_pos (-digits)
      have same := compare_eq_iff_eq.mp equal
      rw [Int.mul_eq_mul_right_iff (by omega), Int.mul_eq_mul_right_iff (by omega)] at same
      rw [same]
    | null | raised => simp [compareValues] at equal
    | _ => simp [fits, Value.hasType, integerFits, isFloating] at otherFits

theorem integer_of_fits {type : DataType} {value : Value} (integer : isInteger type.id = true)
    (valueFits : fits type value = true) : value = .null ∨ ∃ number, value = .int number := by
  cases value with
  | null => exact .inl rfl
  | int number => exact .inr ⟨number, rfl⟩
  | _ =>
    obtain ⟨id, nullable, precision, scale⟩ := type
    cases id <;> simp_all [fits, Value.hasType, isFloating, isInteger, isSigned, isUnsigned]

/-- An integer cast to a common integer type is the same integer, or out of range. -/
theorem converted_integer {type common : DataType} {value : Value} (integer : isInteger type.id = true)
    (commonInteger : isInteger common.id = true) (valueFits : fits type value = true) :
    converted type common value = value ∨ converted type common value = .raised := by
  unfold converted
  split
  · exact .inl rfl
  · rcases integer_of_fits integer valueFits with rfl | ⟨number, rfl⟩
    · exact .inl rfl
    · have isCast : castValue common (.int number) =
          if integerFits common.id number then .int number else .raised := by
        obtain ⟨id, nullable, precision, scale⟩ := common
        cases id <;> first | rfl | simp [isInteger, isSigned, isUnsigned] at commonInteger
      rw [isCast]
      split
      · exact .inl rfl
      · exact .inr rfl

theorem integers_of_equal {type other : DataType} {value item : Value} (integer : isInteger type.id = true)
    (otherInteger : isInteger other.id = true) (valueFits : fits type value = true) (itemFits : fits other item = true)
    (equal : compareValues value item = .ordered .eq) : value = item := by
  rcases integer_of_fits integer valueFits with rfl | ⟨number, rfl⟩
  · rcases integer_of_fits otherInteger itemFits with rfl | ⟨otherNumber, rfl⟩ <;> cases equal
  · rcases integer_of_fits otherInteger itemFits with rfl | ⟨otherNumber, rfl⟩
    · cases equal
    · simp only [compareValues, comparePresent, Value.integerPayload, Comparison.ordered.injEq] at equal
      rw [compare_eq_iff_eq.mp equal]

theorem compareValues_raised (value : Value) : compareValues value .raised = .failed := by
  cases value <;> rfl

theorem isInteger_of_exact {id : TypeId} (exact : isFloating id = false) (numeric : isNumeric id = true)
    (notDecimal : id ≠ .decimal) : isInteger id = true := by
  cases id <;> simp_all [isFloating, isNumeric, isInteger, isSigned, isUnsigned]

/-- Integers meet in an integer type. -/
theorem isInteger_promoted {type other common : DataType} (integer : isInteger type.id = true)
    (otherInteger : isInteger other.id = true) (promoted : promoteNumeric type other = .ok common) :
    isInteger common.id = true := by
  have notDecimal {id : TypeId} (isInt : isInteger id = true) : id ≠ .decimal ∧ isFloating id = false := by
    cases id <;> simp_all [isInteger, isSigned, isUnsigned, isFloating]
  simp only [promoteNumeric] at promoted
  rw [if_neg (by simp [notDecimal integer, notDecimal otherInteger]),
    if_neg (by simp [notDecimal integer, notDecimal otherInteger])] at promoted
  split at promoted
  · cases promoted
  · split at promoted
    · rw [← Except.ok.inj promoted]
      rfl
    · split at promoted
      · rw [← Except.ok.inj promoted]
        rfl
      · split at promoted
        · rw [← Except.ok.inj promoted]
          rfl
        · rw [← Except.ok.inj promoted]
          rfl

section Columns

variable {name name' : String} {index index' : Nat} {type other : DataType} {result : Expression}

/-- Two columns that the binder accepts as equal are of one kind, or both are integers. -/
theorem comparable_columns
    (ran : combineBinary .equal (.column name index type) (.column name' index' other) = .ok result)
    (exact : isFloating type.id = false) (otherExact : isFloating other.id = false) :
    sameKind type other = true ∨ sameKind type other = false ∧ ∃ common,
      promoteNumeric type other = .ok common ∧ isInteger type.id = true ∧ isInteger other.id = true ∧
        isInteger common.id = true := by
  obtain ⟨left', right', _, _, ⟨same, _⟩ | ⟨different, numeric, otherNumeric, common, promoted, leftRan, rightRan⟩⟩ :=
    combineEqual_eq_ok ran
  · exact .inl same
  · refine .inr ⟨different, common, promoted, ?_⟩
    simp only [Expression.resultType] at different numeric otherNumeric promoted
    -- A column is no literal, so it is never turned into a decimal.
    have keepsKind {name : String} {index : Nat} {type : DataType} {cast : Expression}
        (castRan : castIfNeeded (.column name index type) common = .ok cast) (isDecimal : common.id = .decimal) :
        type.id = .decimal := by
      by_contra notDecimal
      have notSame : ¬ sameKind type common = true := by simp [sameKind, isDecimal, notDecimal]
      unfold castIfNeeded at castRan
      simp only at castRan
      split at castRan
      · exact notSame (by assumption)
      · split at castRan
        · cases castRan
        · rename_i stays
          exact stays ⟨isDecimal, notDecimal⟩
    have promotedDecimal : type.id = .decimal ∨ other.id = .decimal → common.id = .decimal := by
      intro decimal
      simp only [promoteNumeric] at promoted
      rw [if_pos decimal] at promoted
      split at promoted
      · split at promoted
        · rename_i both _
          rw [← Except.ok.inj promoted]
          exact both.1
        · cases promoted
      · rw [← Except.ok.inj promoted]
        simp only
        split
        · assumption
        · exact decimal.resolve_left (by assumption)
    have notBoth : ¬ (type.id = .decimal ∧ other.id = .decimal) := by
      intro both
      simp only [promoteNumeric] at promoted
      rw [if_pos (.inl both.1), if_pos both] at promoted
      split at promoted
      · rename_i sameDigits
        simp [sameKind, both, sameDigits] at different
      · cases promoted
    have notDecimal : type.id ≠ .decimal := fun decimal =>
      notBoth ⟨decimal, keepsKind rightRan (promotedDecimal (.inl decimal))⟩
    have otherNotDecimal : other.id ≠ .decimal := fun decimal =>
      notBoth ⟨keepsKind leftRan (promotedDecimal (.inr decimal)), decimal⟩
    have integer := isInteger_of_exact exact numeric notDecimal
    have otherInteger := isInteger_of_exact otherExact otherNumeric otherNotDecimal
    exact ⟨integer, otherInteger, isInteger_promoted integer otherInteger promoted⟩

/-- Values that are both equal to one value are identical. -/
theorem identical_of_meets
    (ran : combineBinary .equal (.column name index type) (.column name' index' other) = .ok result)
    (exact : isFloating type.id = false) (otherExact : isFloating other.id = false) {value first second : Value}
    (valueFits : fits type value = true) (firstFits : fits other first = true) (secondFits : fits other second = true)
    (firstMeets : meets type other value first = true) (secondMeets : meets type other value second = true) :
    first = second := by
  unfold meets at firstMeets secondMeets
  rcases comparable_columns ran exact otherExact with same | ⟨different, common, promoted, integers⟩
  · rw [if_pos same, decide_eq_true_eq] at firstMeets secondMeets
    have moved {item : Value} (itemFits : fits other item = true) : fits type item = true := by
      obtain ⟨sameId, _, sameScale⟩ := sameKind_iff.mp same
      cases item <;> simp_all [fits, Value.hasType]
    rw [← identical_of_equal exact valueFits (moved firstFits) firstMeets,
      ← identical_of_equal exact valueFits (moved secondFits) secondMeets]
  · obtain ⟨integer, otherInteger, commonInteger⟩ := integers
    rw [if_neg (by simp [different]), promoted] at firstMeets secondMeets
    simp only [decide_eq_true_eq] at firstMeets secondMeets
    have isValue {item : Value} (itemFits : fits other item = true)
        (equal : compareValues (converted type common value) (converted other common item) = .ordered .eq) :
        value = item := by
      rcases converted_integer integer commonInteger valueFits with same | raised
      · rcases converted_integer otherInteger commonInteger itemFits with otherSame | raised
        · rw [same, otherSame] at equal
          exact integers_of_equal integer otherInteger valueFits itemFits equal
        · rw [raised, compareValues_raised] at equal
          cases equal
      · rw [raised] at equal
        cases equal
    rw [← isValue firstFits firstMeets, ← isValue secondFits secondMeets]

end Columns

theorem sameKind_comm (type other : DataType) : sameKind type other = sameKind other type := by
  rw [Bool.eq_iff_iff, sameKind_iff, sameKind_iff]
  simp only [eq_comm]

theorem promoteNumeric_comm {type other common : DataType} (promoted : promoteNumeric type other = .ok common) :
    promoteNumeric other type = .ok common := by
  simp only [promoteNumeric] at promoted ⊢
  rw [Bool.or_comm other.nullable]
  by_cases decimal : type.id = .decimal ∨ other.id = .decimal
  · rw [if_pos decimal] at promoted
    rw [if_pos decimal.symm]
    by_cases both : type.id = .decimal ∧ other.id = .decimal
    · rw [if_pos both] at promoted
      rw [if_pos both.symm]
      split at promoted
      · rename_i same
        rw [if_pos ⟨same.1.symm, same.2.symm⟩, both.2, ← same.1, ← same.2, ← promoted, both.1]
      · cases promoted
    · rw [if_neg both] at promoted
      rw [if_neg (fun swapped => both swapped.symm), ← promoted]
      rcases decimal with isDecimal | isDecimal
      · rw [if_pos isDecimal, if_neg (fun otherDecimal => both ⟨isDecimal, otherDecimal⟩)]
      · rw [if_pos isDecimal, if_neg (fun otherDecimal => both ⟨otherDecimal, isDecimal⟩)]
  · rw [if_neg decimal] at promoted
    rw [if_neg (fun swapped => decimal swapped.symm), Bool.or_comm (isFloating other.id)]
    split at promoted
    · rename_i floating
      rw [if_pos floating, promoted]
    · rename_i notFloating
      rw [if_neg notFloating]
      split at promoted
      · cases promoted
      · rename_i sameSign
        rw [if_neg (by
          simp only [Bool.or_eq_true, Bool.and_eq_true, not_or, not_and] at sameSign ⊢
          exact ⟨fun isSigned isUnsigned => sameSign.2 isUnsigned isSigned,
            fun isUnsigned isSigned => sameSign.1 isSigned isUnsigned⟩)]
        simp only [or_comm (a := other.id = _)]
        exact promoted

/-- An equality may be written either way round. -/
theorem combineEqual_comm {left right result : Expression} (ran : combineBinary .equal left right = .ok result) :
    ∃ other, combineBinary .equal right left = .ok other ∧
      ∀ row, (eval other row).isTrue = (eval result row).isTrue := by
  obtain ⟨left', right', type, rfl, operands⟩ := combineEqual_eq_ok ran
  have swapped (row : Row) (nullable : DataType) :
      (eval (.binary .equal right' left' nullable) row).isTrue =
        (eval (.binary .equal left' right' type) row).isTrue := by
    change ((compareValues _ _).truth .equal).isTrue = ((compareValues _ _).truth .equal).isTrue
    rw [isTrue_equal, isTrue_equal]
    exact decide_eq_decide.mpr (compareValues_eq_comm _ _)
  obtain ⟨nullable, otherRan⟩ : ∃ nullable,
      combineBinary .equal right left = .ok (.binary .equal right' left' nullable) := by
    simp only [combineBinary, isArithmetic, isLogical, Bool.false_eq_true, if_false]
    rcases operands with ⟨same, rfl, rfl⟩ | ⟨different, leftNumeric, rightNumeric, common, promoted, leftRan, rightRan⟩
    · rw [sameKind_comm, if_pos same]
      exact ⟨_, rfl⟩
    · rw [sameKind_comm, if_neg (by simp [different]), if_pos (by simp [leftNumeric, rightNumeric]),
        promoteNumeric_comm promoted]
      exact ⟨_, bind_eq_ok.mpr ⟨_, rfl, bind_eq_ok.mpr ⟨_, rightRan, bind_eq_ok.mpr ⟨_, leftRan, rfl⟩⟩⟩⟩
  exact ⟨_, otherRan, fun row => swapped row nullable⟩

/-! ## Columns at other places -/

/-- Expressions that the binder treats alike: one expression, or two columns of one type. -/
def Alike (expression other : Expression) : Prop :=
  expression = other ∨ ∃ name index name' index' type,
    expression = .column name index type ∧ other = .column name' index' type

theorem Alike.resultType {expression other : Expression} (alike : Alike expression other) :
    expression.resultType = other.resultType := by
  rcases alike with rfl | ⟨_, _, _, _, _, rfl, rfl⟩ <;> rfl

/-- On two rows an expression has the value of another wherever two others do. -/
def Follows (expression other result result' : Expression) : Prop :=
  ∀ row row', eval expression row = eval other row' → eval result row = eval result' row'

theorem castIfNeeded_alike {expression other result : Expression} {target : DataType}
    (alike : Alike expression other) (ran : castIfNeeded expression target = .ok result) :
    ∃ result', castIfNeeded other target = .ok result' ∧ Follows expression other result result' := by
  have cast (row row' : Row) (same : eval expression row = eval other row') :
      eval (.cast expression target) row = eval (.cast other target) row' := by
    change castValue target (eval expression row) = castValue target (eval other row')
    rw [same]
  unfold castIfNeeded at ran ⊢
  simp only at ran ⊢
  rw [← alike.resultType]
  split at ran
  · rename_i sameType
    rw [← Except.ok.inj ran, if_pos sameType]
    exact ⟨other, rfl, fun _ _ => id⟩
  · rename_i otherType
    rw [if_neg otherType]
    split at ran
    · rename_i toDecimal
      rw [if_pos toDecimal]
      rcases alike with rfl | ⟨_, _, _, _, _, rfl, rfl⟩
      · refine ⟨result, ran, fun row row' _ => ?_⟩
        split at ran
        · split at ran
          · cases ran
          · rw [← Except.ok.inj ran]
            rfl
        · cases ran
      · cases ran
    · rename_i stays
      rw [if_neg stays, ← Except.ok.inj ran]
      exact ⟨_, rfl, cast⟩

/-- A comparison is bound alike for operands that are alike, and has the same value where they have. -/
theorem combineBinary_alike {op : BinaryOperator} {left left' right right' result : Expression}
    (comparison : isComparison op = true) (leftAlike : Alike left left') (rightAlike : Alike right right')
    (ran : combineBinary op left right = .ok result) :
    ∃ result', combineBinary op left' right' = .ok result' ∧ ∀ row row', eval left row = eval left' row' →
      eval right row = eval right' row' → eval result row = eval result' row' := by
  have notArithmetic : isArithmetic op = false := by cases op <;> first | rfl | cases comparison
  have notLogical : isLogical op = false := by cases op <;> first | rfl | cases comparison
  simp only [combineBinary, notArithmetic, notLogical, Bool.false_eq_true, if_false] at ran ⊢
  rw [← leftAlike.resultType, ← rightAlike.resultType]
  split at ran
  · rename_i same
    rw [if_pos same, ← Except.ok.inj ran]
    refine ⟨_, rfl, fun row row' leftSame rightSame => ?_⟩
    change binaryValue op _ (eval left row) (eval right row) = binaryValue op _ (eval left' row') (eval right' row')
    rw [leftSame, rightSame]
  · rename_i different
    rw [if_neg different]
    split at ran
    · rename_i numeric
      rw [if_pos numeric]
      simp only [bind_eq_ok, pure_eq_ok] at ran ⊢
      obtain ⟨common, promoted, cast, castRan, cast', castRan', rfl⟩ := ran
      obtain ⟨leftCast, leftRan, leftFollows⟩ := castIfNeeded_alike leftAlike castRan
      obtain ⟨rightCast, rightRan, rightFollows⟩ := castIfNeeded_alike rightAlike castRan'
      refine ⟨_, ⟨common, promoted, leftCast, leftRan, rightCast, rightRan, rfl⟩, ?_⟩
      intro row row' leftSame rightSame
      change binaryValue op _ (eval cast row) (eval cast' row) =
        binaryValue op _ (eval leftCast row') (eval rightCast row')
      rw [leftFollows row row' leftSame, rightFollows row row' rightSame]
    · cases ran

end KernelLake.CorrelationKeys
