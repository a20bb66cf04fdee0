import KernelLake.ImplicitCasts
import KernelLake.SimplificationProofs
import KernelLake.SubqueryReplacement

/-!
Subqueries keep their meaning when they are run first.

Replacement changes subqueries only, whatever surrounds them. The list that takes a subquery's place is bound to
a chain of comparisons, and this chain has the three-valued meaning of `IN`. There is one exception: a decimal
is compared with a double after the double has been rounded to its scale.
-/

namespace KernelLake.SubqueryResolutionProofs

open KernelLake.Types KernelLake.Expressions KernelLake.Evaluation KernelLake.SqlAst KernelLake.Binder
open KernelLake.BoundTypes KernelLake.EvaluationTypes KernelLake.ImplicitCasts KernelLake.SimplificationProofs
open KernelLake.SubqueryResolution KernelLake.SubqueryReplacement
open KernelLake.Library.Results KernelLake.Library.Doubles KernelLake.Library.Decimals
open KernelLake.Library.DoubleValues

/-! ## Comparison with a literal -/

/-- A value of a type. A literal that stands for a decimal may still be the number it was written as. -/
def OfType (type : DataType) : Value → Prop
  | .null => True
  | .raised => True
  | .bool _ => type.id = .boolean
  | .int number => isInteger type.id = true ∧ (isSigned type.id = true → inInt64 number = true) ∨ type.id = .decimal
  | .double _ => isFloating type.id = true ∨ type.id = .decimal
  | .string _ => type.id = .string
  | .date _ => type.id = .date32
  | .timestamp _ => type.id = .timestamp
  | .decimal _ _ => type.id = .decimal

/-- A value of one type cast to another where that is needed; a literal retyped to a decimal stays. -/
def converted (type target : DataType) (value : Value) : Value :=
  if sameKind type target = true ∨ target.id = .decimal ∧ type.id ≠ .decimal then value else castValue target value

section Comparison

variable {group : Option (List Row)} {row : Row}

theorem literalValue_numeric {storage : LiteralStorage} {type target : DataType} (numeric : isNumeric type.id = true)
    (targetNumeric : isNumeric target.id = true) : literalValue storage target = literalValue storage type := by
  cases storage with
  | int64 value =>
    have notDate {id : TypeId} (isNumber : isNumeric id = true) : id ≠ .date32 ∧ id ≠ .timestamp := by
      cases id <;> first | exact ⟨by decide, by decide⟩ | cases isNumber
    simp only [literalValue, (notDate numeric).1, (notDate numeric).2, (notDate targetNumeric).1,
      (notDate targetNumeric).2, if_false]
  | _ => rfl

theorem evalIn_castIfNeeded {expression result : Expression} {target : DataType}
    (numeric : isNumeric expression.resultType.id = true) (ran : castIfNeeded expression target = .ok result) :
    evalIn group row result = converted expression.resultType target (evalIn group row expression) := by
  unfold castIfNeeded at ran
  simp only at ran
  unfold converted
  split at ran
  · rename_i same
    rw [if_pos (.inl same), ← Except.ok.inj ran]
  · rename_i different
    split at ran
    · rename_i toDecimal
      rw [if_pos (.inr toDecimal)]
      split at ran
      · split at ran
        · cases ran
        · rw [← Except.ok.inj ran]
          exact literalValue_numeric numeric (by rw [toDecimal.1]; rfl)
      · cases ran
    · rename_i stays
      rw [if_neg (not_or.mpr ⟨different, stays⟩), ← Except.ok.inj ran]
      rfl

/-- What an equality is bound to: operands of one kind stay, and numbers are cast to a common type. -/
theorem combineEqual_eq_ok {left right result : Expression} (ran : combineBinary .equal left right = .ok result) :
    ∃ left' right' type, result = .binary .equal left' right' type ∧
      (sameKind left.resultType right.resultType = true ∧ left' = left ∧ right' = right ∨
        sameKind left.resultType right.resultType = false ∧ isNumeric left.resultType.id = true ∧
          isNumeric right.resultType.id = true ∧ ∃ common,
            promoteNumeric left.resultType right.resultType = .ok common ∧
            castIfNeeded left common = .ok left' ∧ castIfNeeded right common = .ok right') := by
  simp only [combineBinary, isArithmetic, isLogical, Bool.false_eq_true, if_false] at ran
  split at ran
  · rename_i same
    exact ⟨left, right, _, (Except.ok.inj ran).symm, .inl ⟨same, rfl, rfl⟩⟩
  · rename_i different
    split at ran
    · rename_i numeric
      simp only [Bool.and_eq_true] at numeric
      simp only [bind_eq_ok, pure_eq_ok] at ran
      obtain ⟨common, commonRan, left', leftRan, right', rightRan, rfl⟩ := ran
      exact ⟨left', right', _, rfl, .inr ⟨Bool.not_eq_true _ ▸ different, numeric.1, numeric.2, common, commonRan,
        leftRan, rightRan⟩⟩
    · cases ran

/-- The number that a numeric literal stands for, with its type. -/
inductive NumberLiteral : DataType → Value → Prop
  | integer {number : Int} : inInt64 number = true → NumberLiteral (int64Type false) (.int number)
  | double {number : Float} : NumberLiteral (float64Type false) (.double number)

@[simp] theorem converted_null (type target : DataType) : converted type target .null = .null := by
  simp [converted, castValue]

@[simp] theorem converted_raised (type target : DataType) : converted type target .raised = .raised := by
  simp [converted, castValue]

theorem converted_int64 {type : DataType} {nullable : Bool} {number : Int} (fits : inInt64 number = true) :
    converted type (int64Type nullable) (.int number) = .int number := by
  unfold converted
  split
  · rfl
  · simp [int64Type, castValue, castPresent, Value.wholePart, Value.integerPayload, integerFits, fits]

theorem converted_float64 (type : DataType) (nullable : Bool) (number : Float) :
    converted type (float64Type nullable) (.double number) = .double number := by
  unfold converted
  split <;> rfl

theorem converted_float64_int {type : DataType} (nullable : Bool) (number : Int) (other : type.id ≠ .float64) :
    converted type (float64Type nullable) (.int number) = .double (ofInteger number) := by
  have different : ¬ (sameKind type (float64Type nullable) = true ∨
      (float64Type nullable).id = .decimal ∧ type.id ≠ .decimal) := by
    simp [sameKind, float64Type, other]
  rw [converted, if_neg different]
  rfl

theorem converted_decimal (nullable other : Bool) (precision scale : Option Int) (value : Value) :
    converted ⟨.decimal, nullable, precision, scale⟩ ⟨.decimal, other, precision, scale⟩ value = value := by
  simp [converted, sameKind]

theorem converted_toDecimal {type : DataType} (nullable : Bool) (precision scale : Option Int) (value : Value)
    (other : type.id ≠ .decimal) : converted type ⟨.decimal, nullable, precision, scale⟩ value = value := by
  simp [converted, other]

theorem int_of_signed {type : DataType} {number : Int} (signed : isSigned type.id = true)
    (ofType : OfType type (.int number)) : inInt64 number = true := by
  rcases ofType with ⟨_, fits⟩ | decimal
  · exact fits signed
  · rw [decimal] at signed
    cases signed

/-- Casting to a common type changes no comparison with a literal. -/
theorem compare_converted {type other common : DataType} {value item : Value} (numeric : isNumeric type.id = true)
    (ran : promoteNumeric type other = .ok common) (ofType : OfType type value) (number : NumberLiteral other item) :
    compareValues (converted type common value) (converted other common item) = compareValues value item := by
  obtain ⟨id, nullable, precision, scale⟩ := type
  cases number with
  | @integer number inRange =>
    cases id with
    | int32 | int64 =>
      obtain rfl : int64Type (nullable || false) = common := Except.ok.inj ran
      rw [converted_int64 inRange]
      cases value with
      | int whole => rw [converted_int64 (int_of_signed rfl ofType)]
      | null => rw [converted_null]
      | raised => rw [converted_raised]
      | double _ => rcases ofType with wrong | wrong <;> cases wrong
      | _ => cases ofType
    | float32 | float64 =>
      obtain rfl : float64Type (nullable || false) = common := Except.ok.inj ran
      rw [converted_float64_int _ _ (by decide)]
      cases value with
      | double fraction =>
        rw [converted_float64]
        rfl
      | null =>
        rw [converted_null]
        rfl
      | raised =>
        rw [converted_raised]
        rfl
      | int _ => rcases ofType with ⟨wrong, _⟩ | wrong <;> cases wrong
      | _ => cases ofType
    | decimal =>
      obtain rfl : ⟨.decimal, nullable || false, precision, scale⟩ = common := Except.ok.inj ran
      rw [converted_decimal, converted_toDecimal _ _ _ _ (by decide)]
    | uint32 | uint64 => cases ran
    | _ => cases numeric
  | @double number =>
    cases id with
    | int32 | int64 | uint32 | uint64 =>
      obtain rfl : float64Type (nullable || false) = common := Except.ok.inj ran
      rw [converted_float64]
      cases value with
      | int whole =>
        rw [converted_float64_int _ _ (by simp)]
        rfl
      | null =>
        rw [converted_null]
      | raised =>
        rw [converted_raised]
      | double _ => rcases ofType with wrong | wrong <;> cases wrong
      | _ => cases ofType
    | float32 | float64 =>
      obtain rfl : float64Type (nullable || false) = common := Except.ok.inj ran
      rw [converted_float64]
      cases value with
      | double fraction => rw [converted_float64]
      | null => rw [converted_null]
      | raised => rw [converted_raised]
      | int _ => rcases ofType with ⟨wrong, _⟩ | wrong <;> cases wrong
      | _ => cases ofType
    | decimal =>
      obtain rfl : ⟨.decimal, nullable || false, precision, scale⟩ = common := Except.ok.inj ran
      rw [converted_decimal, converted_toDecimal _ _ _ _ (by decide)]
    | _ => cases numeric

/-- The values that a subquery's result can have as literals. -/
inductive Materialised : AstLiteral → Value → Prop
  | null : Materialised .null .null
  | integer (number : Int64) : Materialised (.integer number) (.int number.toInt)
  | float (number : Float) : Materialised (.float number) (.double number)
  | string (text : String) : Materialised (.string text) (.string text)

theorem scalarToLiteral_materialised {scalar : ArrowScalar} {literal : AstLiteral}
    (ran : scalarToLiteral scalar = .ok literal) : Materialised literal scalar.value := by
  cases scalar with
  | missing =>
    obtain rfl := Except.ok.inj ran
    exact .null
  | double number =>
    obtain rfl := Except.ok.inj ran
    exact .float number
  | int64 number =>
    obtain rfl := Except.ok.inj ran
    exact .integer number
  | string text =>
    obtain rfl := Except.ok.inj ran
    exact .string text
  | other => cases ran

/-- The expression that an item of an `IN` list is compared as; a bare `NULL` takes the type of the value. -/
def boundItem (value : Expression) (literal : AstLiteral) : Expression :=
  if literal = .null then makeNull value.resultType else bindLiteral literal

/-- A comparison with a literal compares the values. -/
theorem evalIn_comparison {value comparison : Expression} {literal : AstLiteral} {item : Value}
    (ofType : OfType value.resultType (evalIn group row value)) (materialised : Materialised literal item)
    (ran : combineBinary .equal value (boundItem value literal) = .ok comparison) :
    evalIn group row comparison = (compareValues (evalIn group row value) item).truth .equal := by
  have itemValue : evalIn group row (boundItem value literal) = item := by
    cases materialised <;> simp [boundItem, makeNull, bindLiteral, makeInt64, makeFloat64, makeString, evalIn,
      literalValue, int64Type]
  have number (isNumber : isNumeric (boundItem value literal).resultType.id = true)
      (present : literal ≠ .null) : NumberLiteral (boundItem value literal).resultType item := by
    cases materialised with
    | null => exact absurd rfl present
    | integer number => exact .integer (toInt_inInt64 number)
    | float number => exact .double
    | string text => cases isNumber
  obtain ⟨left, right, type, rfl, ⟨_, rfl, rfl⟩ |
    ⟨different, numeric, itemNumeric, common, commonRan, leftRan, rightRan⟩⟩ := combineEqual_eq_ok ran
  · rw [evalIn, itemValue]
    rfl
  · have present : literal ≠ .null := by
      rintro rfl
      rw [boundItem, if_pos rfl, makeNull, Expression.resultType, sameKind_refl] at different
      cases different
    rw [evalIn, evalIn_castIfNeeded numeric leftRan, evalIn_castIfNeeded itemNumeric rightRan, itemValue]
    have same := compare_converted numeric commonRan ofType (number itemNumeric present)
    simp only [binaryValue, same]

end Comparison

/-! ## Three-valued disjunction -/

theorem orValue_anyTrue {truths : List Value} {truth : Value} (isTruth : inhabits .boolean truth = true) :
    orValue (anyTrue truths) truth = anyTrue (truths ++ [truth]) := by
  unfold anyTrue
  by_cases someTrue : .bool true ∈ truths
  · simp [someTrue, orValue]
  · by_cases someRaised : .raised ∈ truths
    · rcases bool_of_inhabits isTruth with rfl | rfl | ⟨_ | _, rfl⟩ <;> simp [someTrue, someRaised, orValue]
    · by_cases someNull : .null ∈ truths
      · rcases bool_of_inhabits isTruth with rfl | rfl | ⟨_ | _, rfl⟩ <;>
          simp [someTrue, someRaised, someNull, orValue]
      · rcases bool_of_inhabits isTruth with rfl | rfl | ⟨_ | _, rfl⟩ <;>
          simp [someTrue, someRaised, someNull, orValue]

theorem anyTrue_single {truth : Value} (isTruth : inhabits .boolean truth = true) : anyTrue [truth] = truth := by
  rcases bool_of_inhabits isTruth with rfl | rfl | ⟨_ | _, rfl⟩ <;> simp [anyTrue]

theorem combineOr_value {group : Option (List Row)} {row : Row} {left right result : Expression}
    (ran : combineBinary .or left right = .ok result) :
    evalIn group row result = orValue (evalIn group row left) (evalIn group row right) := by
  simp only [combineBinary, isArithmetic, isLogical, Bool.false_eq_true, if_false, if_true] at ran
  split at ran
  · cases ran
  · rw [← Except.ok.inj ran]
    rfl

section Items

variable {Statement : Type} {resolve : Reference → Except String Expression} {group : Option (List Row)} {row : Row}

theorem isUntypedNull_literal (literal : AstLiteral) :
    isUntypedNull (.literal literal : AstExpr Statement) = decide (literal = .null) := by
  cases literal <;> rfl

theorem itemBound_eq {allowAggregates : Bool} {value item : Expression} {literal : AstLiteral}
    (ran : (if isUntypedNull (.literal literal : AstExpr Statement) then .ok (makeNull value.resultType)
      else bindWith resolve allowAggregates (.literal literal : AstExpr Statement) : Except String Expression) =
        .ok item) : item = boundItem value literal := by
  rw [isUntypedNull_literal] at ran
  unfold boundItem
  by_cases absent : literal = .null
  · rw [if_pos absent]
    simpa [absent] using ran.symm
  · rw [if_neg absent]
    simpa [absent, bindWith] using ran.symm

/-- Every literal of a list is compared with the value. -/
theorem bindItems_comparable {allowAggregates : Bool} {value : Expression} {literals : List AstLiteral}
    {sofar result : Option Expression}
    (ran : bindItems resolve allowAggregates value sofar (literalList literals : AstExprList Statement) = .ok result) :
    ∀ literal ∈ literals, ∃ comparison, combineBinary .equal value (boundItem value literal) = .ok comparison := by
  induction literals generalizing sofar with
  | nil => exact List.forall_mem_nil _
  | cons literal literals hypothesis =>
    simp only [literalList, bindItems, bind_eq_ok] at ran
    obtain ⟨item, itemRan, comparison, comparisonRan, next, nextRan, restRan⟩ := ran
    rw [itemBound_eq itemRan] at comparisonRan
    exact List.forall_mem_cons.mpr ⟨⟨comparison, comparisonRan⟩, hypothesis restRan⟩

/-- The chain of comparisons with a list of literals has the value of the disjunction, on from what has been
built before. -/
theorem bindItems_value {allowAggregates : Bool} {value : Expression} {literals : List AstLiteral}
    {items : List Value} (materialised : List.Forall₂ Materialised literals items)
    (ofType : OfType value.resultType (evalIn group row value)) {sofar result : Option Expression}
    {truths : List Value}
    (ran : bindItems resolve allowAggregates value sofar (literalList literals : AstExprList Statement) = .ok result)
    (before : ∀ previous, sofar = some previous → evalIn group row previous = anyTrue truths)
    (none : sofar = none → truths = []) :
    (result = .none ∧ sofar = .none ∧ literals = []) ∨ ∃ bound, result = some bound ∧ evalIn group row bound =
      anyTrue (truths ++ items.map (fun item => (compareValues (evalIn group row value) item).truth .equal)) := by
  induction materialised generalizing sofar truths with
  | nil =>
    simp only [literalList, bindItems, pure_eq_ok] at ran
    subst ran
    cases sofar with
    | none => exact .inl ⟨rfl, rfl, rfl⟩
    | some previous => exact .inr ⟨previous, rfl, by simpa using before previous rfl⟩
  | @cons literal item literals items isItem _ hypothesis =>
    right
    simp only [literalList, bindItems, bind_eq_ok] at ran
    obtain ⟨item', itemRan, comparison, comparisonRan, next, nextRan, restRan⟩ := ran
    rw [itemBound_eq itemRan] at comparisonRan
    have comparisonValue := evalIn_comparison ofType isItem comparisonRan
    have isTruth := inhabits_truth .equal (compareValues (evalIn group row value) item)
    have nextValue : evalIn group row next =
        anyTrue (truths ++ [(compareValues (evalIn group row value) item).truth .equal]) := by
      cases sofar with
      | none =>
        rw [← pure_eq_ok.mp nextRan, none rfl, comparisonValue, List.nil_append, anyTrue_single isTruth]
      | some previous =>
        simp only [Option.elim] at nextRan
        rw [combineOr_value nextRan, before previous rfl, comparisonValue, orValue_anyTrue isTruth]
    rcases hypothesis restRan (fun previous isNext => by rw [← Option.some.inj isNext]; exact nextValue)
      (fun absent => by cases absent) with ⟨_, absent, _⟩ | found
    · cases absent
    · simpa using found

theorem listPredicate_comparable {allowAggregates : Bool} {value : AstExpr Statement} {boundValue bound : Expression}
    {literals : List AstLiteral} {negated : Bool} (valueRan : bindWith resolve allowAggregates value = .ok boundValue)
    (ran : bindWith resolve allowAggregates (listPredicate value literals negated) = .ok bound) :
    ∀ literal ∈ literals,
      ∃ comparison, combineBinary .equal boundValue (boundItem boundValue literal) = .ok comparison := by
  cases literals with
  | nil => exact List.forall_mem_nil _
  | cons literal literals =>
    simp only [listPredicate, List.isEmpty_cons, Bool.false_eq_true, if_false, literalList, bindWith,
      AstExprList.isEmpty, bind_eq_ok] at ran
    obtain ⟨value', value'Ran, result, resultRan, _⟩ := ran
    obtain rfl := Except.ok.inj (valueRan.symm.trans value'Ran)
    have listRan : bindItems resolve allowAggregates boundValue none
        (literalList (literal :: literals) : AstExprList Statement) = .ok result := resultRan
    exact bindItems_comparable listRan

/-- The three-valued meaning of a list predicate, with the comparisons as they are made. -/
theorem listPredicate_value {allowAggregates : Bool} {value : AstExpr Statement} {boundValue bound : Expression}
    {literals : List AstLiteral} {items : List Value} {negated : Bool}
    (valueRan : bindWith resolve allowAggregates value = .ok boundValue)
    (ran : bindWith resolve allowAggregates (listPredicate value literals negated) = .ok bound)
    (materialised : List.Forall₂ Materialised literals items)
    (ofType : OfType boundValue.resultType (evalIn group row boundValue)) :
    let found := anyTrue (items.map (fun item => (compareValues (evalIn group row boundValue) item).truth .equal))
    evalIn group row bound = if negated then notValue found else found := by
  intro found
  cases materialised with
  | nil =>
    simp only [listPredicate, List.isEmpty_nil, if_true, bindWith, bindLiteral, makeBool] at ran
    rw [← Except.ok.inj ran]
    cases negated <;> rfl
  | @cons literal item literals items isItem rest =>
    simp only [listPredicate, List.isEmpty_cons, Bool.false_eq_true, if_false, literalList, bindWith,
      AstExprList.isEmpty, bind_eq_ok] at ran
    obtain ⟨value', value'Ran, result, resultRan, ran⟩ := ran
    obtain rfl := Except.ok.inj (valueRan.symm.trans value'Ran)
    rcases bindItems_value (.cons isItem rest) ofType resultRan (fun _ absent => by cases absent) (fun _ => rfl) with
      ⟨_, _, empty⟩ | ⟨chain, rfl, chainValue⟩
    · cases empty
    · rw [List.nil_append] at chainValue
      cases negated with
      | true =>
        simp only [if_true, pure_eq_ok] at ran
        rw [← ran, evalIn, Option.getD_some, chainValue]
        rfl
      | false =>
        simp only [Bool.false_eq_true, if_false, pure_eq_ok] at ran
        rw [← ran, Option.getD_some, chainValue]
        rfl

end Items

/-! ## Decimals and doubles -/

/-- The equality of a decimal and an item as it is decided: a double is first rounded to a number of units. -/
def EqualRounded (unscaled scale : Int) : Value → Prop
  | .double number => roundToScale scale number = some (unscaled * tenTo (-scale))
  | item => sqlEquals (.decimal unscaled scale) item = .bool true

/-- Rounding does no harm to the search for a value in a list: if a decimal is in the list, then it is found, and
otherwise every double of the list rounds to another number. -/
def RoundingHarmless (value : Value) (items : List Value) : Prop :=
  ∀ unscaled scale, value = .decimal unscaled scale →
    ((∃ item ∈ items, sqlEquals value item = .bool true) → ∃ item ∈ items, EqualRounded unscaled scale item) ∧
    ((¬ ∃ item ∈ items, sqlEquals value item = .bool true) → ∀ number, .double number ∈ items →
      ∃ raw, roundToScale scale number = some raw ∧ raw ≠ unscaled * tenTo (-scale))

theorem truth_decimal_double (unscaled scale : Int) (number : Float) :
    (compareValues (.decimal unscaled scale) (.double number)).truth .equal =
      match roundToScale scale number with
      | some raw => .bool (raw = unscaled * tenTo (-scale))
      | none => .raised := by
  simp only [compareValues, comparePresent, Value.integerPayload, Value.doublePayload, Option.map_none, decimalScale,
    asFraction]
  cases rounded : roundToScale scale number with
  | none => rfl
  | some raw =>
    have positive : (0 : Int) < tenTo scale := by exact_mod_cast tenTo_pos scale
    simp only [Option.map_some, Comparison.truth, accepts, compareFractions]
    congr 1
    rw [Bool.eq_iff_iff, beq_iff_eq, decide_eq_true_eq, compare_eq_iff_eq, mul_left_inj' positive.ne']
    exact eq_comm

theorem sqlEquals_plain {value item : Value}
    (plain : ∀ unscaled scale number, value = .decimal unscaled scale → item ≠ .double number) :
    sqlEquals value item = (compareValues value item).truth .equal := by
  unfold sqlEquals
  split
  · exact absurd rfl (plain _ _ _ rfl)
  · rfl

/-- What an item of a list found by a decimal can be. -/
def Numeral (item : Value) : Prop :=
  item = .null ∨ (∃ number, item = .int number) ∨ ∃ number, item = .double number

section Decimal

variable {item : Value}

/-- Only a double can be judged otherwise than it is. -/
theorem numeral_cases (unscaled scale : Int) (numeral : Numeral item) :
    sqlEquals (.decimal unscaled scale) item = (compareValues (.decimal unscaled scale) item).truth .equal ∧
      sqlEquals (.decimal unscaled scale) item ≠ .raised ∧
      (EqualRounded unscaled scale item ↔ sqlEquals (.decimal unscaled scale) item = .bool true) ∨
    ∃ number, item = .double number := by
  rcases numeral with rfl | ⟨number, rfl⟩ | isDouble
  · exact .inl ⟨rfl, by simp [sqlEquals, compareValues, Comparison.truth], Iff.rfl⟩
  · refine .inl ⟨rfl, ?_, Iff.rfl⟩
    simp [sqlEquals, compareValues, comparePresent, Value.integerPayload, Value.doublePayload, decimalScale, asFraction,
      Comparison.truth]
  · exact .inr isDouble

theorem truth_iff_equalRounded {unscaled scale : Int} (numeral : Numeral item) :
    (compareValues (.decimal unscaled scale) item).truth .equal = .bool true ↔ EqualRounded unscaled scale item := by
  rcases numeral_cases unscaled scale numeral with ⟨same, _, rounded⟩ | ⟨number, rfl⟩
  · rw [rounded, same]
  · rw [truth_decimal_double, EqualRounded]
    cases roundToScale scale number with
    | none => simp
    | some raw => simp

end Decimal

theorem anyTrue_eq_true {truths : List Value} : anyTrue truths = .bool true ↔ .bool true ∈ truths := by
  unfold anyTrue
  split
  · simp [*]
  · rename_i noTrue
    refine iff_of_false ?_ noTrue
    split
    · simp
    · split <;> simp

/-- A disjunction depends on which of the three strong values occur. -/
theorem anyTrue_congr {first second : List Value} (true_ : .bool true ∈ first ↔ .bool true ∈ second)
    (raised : .bool true ∉ first → (.raised ∈ first ↔ .raised ∈ second)) (null : .null ∈ first ↔ .null ∈ second) :
    anyTrue first = anyTrue second := by
  unfold anyTrue
  by_cases someTrue : .bool true ∈ first
  · rw [if_pos someTrue, if_pos (true_.mp someTrue)]
  · rw [if_neg someTrue, if_neg (fun inSecond => someTrue (true_.mpr inSecond))]
    simp only [raised someTrue, null]

/-- Whether a list predicate is decided rightly depends on rounding alone. -/
theorem anyTrue_eq_iff {value : Value} {items : List Value}
    (numerals : ∀ unscaled scale, value = .decimal unscaled scale → ∀ item ∈ items, Numeral item) :
    anyTrue (items.map (fun item => (compareValues value item).truth .equal)) = anyTrue (items.map (sqlEquals value)) ↔
      RoundingHarmless value items := by
  by_cases decimal : ∃ unscaled scale, value = .decimal unscaled scale
  · obtain ⟨unscaled, scale, rfl⟩ := decimal
    have each := numerals unscaled scale rfl
    have foundRounded : .bool true ∈
        items.map (fun item => (compareValues (.decimal unscaled scale) item).truth .equal) ↔
        ∃ item ∈ items, EqualRounded unscaled scale item := by
      rw [List.mem_map]
      exact exists_congr (fun item => and_congr_right (fun member => truth_iff_equalRounded (each item member)))
    have foundExactly : .bool true ∈ items.map (sqlEquals (.decimal unscaled scale)) ↔
        ∃ item ∈ items, sqlEquals (.decimal unscaled scale) item = .bool true := List.mem_map
    have neverRaised : .raised ∉ items.map (sqlEquals (.decimal unscaled scale)) := by
      intro member
      obtain ⟨item, inItems, raised⟩ := List.mem_map.mp member
      rcases numeral_cases unscaled scale (each item inItems) with ⟨_, notRaised, _⟩ | ⟨number, rfl⟩
      · exact notRaised raised
      · simp [sqlEquals] at raised
    have sameNulls : .null ∈ items.map (fun item => (compareValues (.decimal unscaled scale) item).truth .equal) ↔
        .null ∈ items.map (sqlEquals (.decimal unscaled scale)) := by
      rw [List.mem_map, List.mem_map]
      refine exists_congr (fun item => and_congr_right (fun member => ?_))
      rcases numeral_cases unscaled scale (each item member) with ⟨same, _⟩ | ⟨number, rfl⟩
      · rw [same]
      · rw [truth_decimal_double]
        cases roundToScale scale number <;> simp [sqlEquals]
    constructor
    · intro same otherUnscaled otherScale isDecimal
      obtain ⟨rfl, rfl⟩ := Value.decimal.inj isDecimal
      refine ⟨fun exact => ?_, fun noneExact number member => ?_⟩
      · rw [anyTrue_eq_true.mpr (foundExactly.mpr exact), anyTrue_eq_true, foundRounded] at same
        exact same
      · have noTrue : .bool true ∉
            items.map (fun item => (compareValues (.decimal unscaled scale) item).truth .equal) := by
          rw [← anyTrue_eq_true, same, anyTrue_eq_true, foundExactly]
          exact noneExact
        cases rounded : roundToScale scale number with
        | none =>
          have isRaised : .raised ∈
              items.map (fun item => (compareValues (.decimal unscaled scale) item).truth .equal) := by
            refine List.mem_map.mpr ⟨.double number, member, ?_⟩
            rw [truth_decimal_double, rounded]
          rw [anyTrue, anyTrue, if_neg noTrue, if_pos isRaised, if_neg (fun found => noneExact (foundExactly.mp found)),
            if_neg neverRaised] at same
          split at same <;> cases same
        | some raw =>
          refine ⟨raw, rfl, fun isSame => noTrue (foundRounded.mpr ⟨.double number, member, ?_⟩)⟩
          rw [EqualRounded, rounded, isSame]
    · intro harmless
      obtain ⟨whenExact, whenNot⟩ := harmless unscaled scale rfl
      have sameTrue : .bool true ∈
          items.map (fun item => (compareValues (.decimal unscaled scale) item).truth .equal) ↔
          .bool true ∈ items.map (sqlEquals (.decimal unscaled scale)) := by
        rw [foundRounded, foundExactly]
        constructor
        · rintro ⟨item, inItems, rounded⟩
          by_contra noneExact
          rcases numeral_cases unscaled scale (each item inItems) with ⟨_, _, isSame⟩ | ⟨number, rfl⟩
          · exact noneExact ⟨item, inItems, isSame.mp rounded⟩
          · obtain ⟨raw, isRaw, different⟩ := whenNot noneExact number inItems
            exact different (Option.some.inj (isRaw.symm.trans rounded))
        · exact whenExact
      refine anyTrue_congr sameTrue (fun noTrue => iff_of_false (fun member => ?_) neverRaised) sameNulls
      obtain ⟨item, inItems, raised⟩ := List.mem_map.mp member
      rcases numeral_cases unscaled scale (each item inItems) with ⟨same, notRaised, _⟩ | ⟨number, rfl⟩
      · exact notRaised (same.trans raised)
      · obtain ⟨raw, isRaw, _⟩ := whenNot (fun found => noTrue (sameTrue.mpr (foundExactly.mpr found))) number inItems
        rw [truth_decimal_double, isRaw] at raised
        cases raised
  · have same : items.map (sqlEquals value) = items.map (fun item => (compareValues value item).truth .equal) :=
      List.map_congr_left (fun item _ =>
        sqlEquals_plain (fun unscaled scale _ isDecimal => absurd ⟨unscaled, scale, isDecimal⟩ decimal))
    rw [same]
    exact iff_of_true rfl (fun unscaled scale isDecimal => absurd ⟨unscaled, scale, isDecimal⟩ decimal)

/-! ## Results -/

/-- The scalars of a result with one column. -/
def scalars (result : QueryResult) : List ArrowScalar :=
  result.batches.flatMap RecordBatch.firstColumn

theorem values_eq (result : QueryResult) : result.values = (scalars result).map ArrowScalar.value := by
  rw [QueryResult.values, scalars, List.map_flatMap]

theorem length_firstColumn {result : QueryResult} (single : result.fieldCount = 1) {batch : RecordBatch}
    (member : batch ∈ result.batches) : batch.firstColumn.length = batch.numRows := by
  have width := result.fitting batch member
  rw [single] at width
  obtain ⟨column, isColumn⟩ := List.length_eq_one_iff.mp width
  rw [RecordBatch.firstColumn, isColumn]
  exact batch.even column (by rw [isColumn]; exact List.mem_singleton_self column)

/-- The first scalar is the first one of the first batch with rows. -/
theorem head_scalars {batches : List RecordBatch}
    (lengths : ∀ batch ∈ batches, batch.firstColumn.length = batch.numRows) :
    (batches.find? (fun batch => 0 < batch.numRows)).bind (·.firstColumn.head?) =
      (batches.flatMap RecordBatch.firstColumn).head? := by
  induction batches with
  | nil => rfl
  | cons batch batches hypothesis =>
    obtain ⟨here, others⟩ := List.forall_mem_cons.mp lengths
    rw [List.find?_cons, List.flatMap_cons]
    by_cases filled : 0 < batch.numRows
    · obtain ⟨scalar, rest, isFirst⟩ := List.exists_cons_of_length_pos (here.symm ▸ filled)
      simp [filled, isFirst]
    · have empty : batch.firstColumn = [] := List.eq_nil_of_length_eq_zero (by omega)
      simp only [filled, decide_false, empty, List.nil_append]
      exact hypothesis others

theorem sum_numRows {batches : List RecordBatch}
    (lengths : ∀ batch ∈ batches, batch.firstColumn.length = batch.numRows) :
    (batches.map RecordBatch.numRows).sum = (batches.flatMap RecordBatch.firstColumn).length := by
  rw [List.length_flatMap, List.map_congr_left lengths]

section Evaluated

variable {Statement : Type} {runSubquery : Statement → Except String QueryResult} {subquery : Statement}

/-- A scalar subquery that has a literal has one value, and this is it. -/
theorem evaluateScalarSubquery_eq_ok {literal : AstLiteral}
    (ran : evaluateScalarSubquery runSubquery subquery = .ok literal) :
    ∃ result value, runSubquery subquery = .ok result ∧ result.values = [value] ∧ Materialised literal value := by
  simp only [evaluateScalarSubquery, bind_eq_ok] at ran
  obtain ⟨result, resultRan, ran⟩ := ran
  split at ran
  · cases ran
  · rename_i single
    split at ran
    · cases ran
    · rename_i oneRow
      have lengths : ∀ batch ∈ result.batches, batch.firstColumn.length = batch.numRows :=
        fun batch member => length_firstColumn (not_not.mp single) member
      rw [head_scalars lengths] at ran
      rw [not_not, sum_numRows lengths] at oneRow
      obtain ⟨scalar, isScalar⟩ := List.length_eq_one_iff.mp oneRow
      rw [isScalar, List.head?_cons] at ran
      refine ⟨result, scalar.value, resultRan, ?_, scalarToLiteral_materialised ran⟩
      rw [values_eq, scalars, isScalar]
      rfl

/-- The literals of an `IN` subquery are its values, in order and with repetitions. -/
theorem evaluateListSubquery_eq_ok {literals : List AstLiteral}
    (ran : evaluateListSubquery runSubquery subquery = .ok literals) :
    ∃ result, runSubquery subquery = .ok result ∧ List.Forall₂ Materialised literals result.values := by
  simp only [evaluateListSubquery, bind_eq_ok] at ran
  obtain ⟨result, resultRan, ran⟩ := ran
  split at ran
  · cases ran
  · refine ⟨result, resultRan, ?_⟩
    rw [values_eq, List.forall₂_map_right_iff]
    exact (mapM_eq_ok.mp ran).flip.imp (fun _ _ => scalarToLiteral_materialised)

end Evaluated

/-! ## Statements -/

section Statements

variable (runSubquery : AstSelectStatement → Except String QueryResult)

/-- What a scalar subquery is replaced by. -/
def ScalarValue (statement : AstSelectStatement) (node : SqlExpr) : Prop :=
  ∃ literal, evaluateScalarSubquery runSubquery statement = .ok literal ∧ node = .literal literal

/-- What a predicate with an `IN` subquery is replaced by. -/
def Membership (value : SqlExpr) (subquery : AstSelectStatement) (negated : Bool) (node : SqlExpr) : Prop :=
  ∃ literals, evaluateListSubquery runSubquery subquery = .ok literals ∧ node = listPredicate value literals negated

def KeptMembership (value : SqlExpr) (subquery : AstSelectStatement) (negated : Bool) (node : SqlExpr) : Prop :=
  node = .inSubquery value subquery negated

/-- A statement whose subqueries have been run: `HAVING` and `WHERE` are what they were up to replacement, and
everything else is as it was. -/
structure StatementResolved (stmt result : AstSelectStatement) : Prop where
  unchanged : result = { stmt with condition := result.condition, having := result.having }
  having : Option.Rel (Replaced (ScalarValue runSubquery) KeptMembership) stmt.having result.having
  condition : Option.Rel (Replaced (ScalarValue runSubquery) (Membership runSubquery)) stmt.condition result.condition

/-- A scalar subquery's place is taken by an expression with the value of its result. -/
def ScalarKept (statement : AstSelectStatement) (node : SqlExpr) : Prop :=
  ∃ found value, runSubquery statement = .ok found ∧ found.values = [value] ∧
    ∀ resolve allowAggregates bound, bindWith resolve allowAggregates node = .ok bound →
      ∀ group row, evalIn group row bound = value

/-- The place of an `IN` predicate is taken by an expression with the predicate's three-valued meaning, as long
as rounding does no harm; where it does, the meaning is another one. -/
def MembershipKept (value : SqlExpr) (subquery : AstSelectStatement) (negated : Bool) (node : SqlExpr) : Prop :=
  ∃ found, runSubquery subquery = .ok found ∧
    ∀ resolve allowAggregates boundValue bound, bindWith resolve allowAggregates value = .ok boundValue →
      bindWith resolve allowAggregates node = .ok bound →
      ∀ group row, OfType boundValue.resultType (evalIn group row boundValue) →
        (evalIn group row bound = sqlIn negated (evalIn group row boundValue) found.values ↔
          RoundingHarmless (evalIn group row boundValue) found.values)

variable {runSubquery} {stmt result : AstSelectStatement}

theorem resolveSubqueries_replaced {expression result : SqlExpr}
    (ran : resolveSubqueries (evaluateScalarSubquery runSubquery) expression = .ok result) :
    Replaced (ScalarValue runSubquery) KeptMembership expression result := by
  refine Answers.replaced ⟨fun ran => ?_, fun ran => (Except.ok.inj ran).symm⟩ expression ran
  simp only [bind_eq_ok, pure_eq_ok] at ran
  obtain ⟨literal, literalRan, isLiteral⟩ := ran
  exact ⟨literal, literalRan, isLiteral.symm⟩

theorem resolveInSubqueries_replaced {expression result : SqlExpr}
    (ran : resolveInSubqueries (evaluateListSubquery runSubquery) expression = .ok result) :
    Replaced (fun statement node => node = .subquery statement) (Membership runSubquery) expression result := by
  refine Answers.replaced ⟨fun ran => (Except.ok.inj ran).symm, fun ran => ?_⟩ expression ran
  simp only [bind_eq_ok, pure_eq_ok] at ran
  obtain ⟨literals, literalsRan, isList⟩ := ran
  exact ⟨literals, literalsRan, isList.symm⟩

/-- A literal is no subquery, so the second pass leaves it. -/
theorem passes_where (runSubquery : AstSelectStatement → Except String QueryResult) :
    Passes (ScalarValue runSubquery) (fun statement node => node = .subquery statement) (ScalarValue runSubquery)
      KeptMembership (Membership runSubquery) where
  both first second := by
    obtain ⟨literal, ran, rfl⟩ := first
    cases second
    exact ⟨literal, ran, rfl⟩
  kept kept := kept

theorem resolveStatement_resolved (ran : resolveStatement runSubquery stmt = .ok result) :
    StatementResolved runSubquery stmt result := by
  simp only [resolveStatement, bind_eq_ok, pure_eq_ok] at ran
  obtain ⟨having, havingRan, middle, middleRan, condition, conditionRan, rfl⟩ := ran
  refine ⟨rfl, ?_, ?_⟩
  · rcases optionMapM_eq_ok.mp havingRan with ⟨isNone, rfl⟩ | ⟨_, _, isSome, rfl, replaced⟩
    · rw [isNone]
      exact .none
    · rw [isSome]
      exact .some (resolveSubqueries_replaced replaced)
  · rcases optionMapM_eq_ok.mp middleRan with ⟨isNone, rfl⟩ | ⟨written, scalarsReplaced, isSome, rfl, first⟩
    · obtain rfl := pure_eq_ok.mp conditionRan
      rw [isNone]
      exact .none
    · rcases optionMapM_eq_ok.mp conditionRan with ⟨absent, _⟩ | ⟨_, _, isMiddle, rfl, second⟩
      · cases absent
      · obtain rfl := Option.some.inj isMiddle
        rw [isSome]
        exact .some ((passes_where runSubquery).replaced written (resolveSubqueries_replaced first)
          (resolveInSubqueries_replaced second))

theorem scalarKept_of_value {statement : AstSelectStatement} {node : SqlExpr}
    (isValue : ScalarValue runSubquery statement node) : ScalarKept runSubquery statement node := by
  obtain ⟨literal, ran, rfl⟩ := isValue
  obtain ⟨found, value, foundRan, values, materialised⟩ := evaluateScalarSubquery_eq_ok ran
  refine ⟨found, value, foundRan, values, ?_⟩
  intro resolve allowAggregates bound boundRan group row
  rw [← Except.ok.inj boundRan]
  cases materialised <;> rfl

/-- A decimal is compared with numbers only. -/
theorem numeral_of_compared {value : Expression} {literal : AstLiteral} {item : Value}
    (decimal : value.resultType.id = .decimal) (materialised : Materialised literal item)
    (compared : ∃ comparison, combineBinary .equal value (boundItem value literal) = .ok comparison)
    : Numeral item := by
  cases materialised with
  | null => exact .inl rfl
  | integer number => exact .inr (.inl ⟨_, rfl⟩)
  | float number => exact .inr (.inr ⟨_, rfl⟩)
  | string text =>
    obtain ⟨comparison, ran⟩ := compared
    obtain ⟨_, _, _, _, ⟨same, _⟩ | ⟨_, _, numeric, _⟩⟩ := combineEqual_eq_ok ran
    · have ids := (sameKind_iff.mp same).1
      rw [decimal] at ids
      cases ids
    · cases numeric

theorem membershipKept_of_list {value node : SqlExpr} {subquery : AstSelectStatement} {negated : Bool}
    (isList : Membership runSubquery value subquery negated node) :
    MembershipKept runSubquery value subquery negated node := by
  obtain ⟨literals, ran, rfl⟩ := isList
  obtain ⟨found, foundRan, materialised⟩ := evaluateListSubquery_eq_ok ran
  refine ⟨found, foundRan, ?_⟩
  intro resolve allowAggregates boundValue bound valueRan boundRan group row ofType
  have numerals : ∀ unscaled scale, evalIn group row boundValue = .decimal unscaled scale →
      ∀ item ∈ found.values, Numeral item := by
    intro unscaled scale isDecimal item member
    rw [isDecimal] at ofType
    obtain ⟨literal, isLiteral, isItem⟩ := exists_of_mem_right materialised member
    exact numeral_of_compared ofType isItem (listPredicate_comparable valueRan boundRan literal isLiteral)
  rw [listPredicate_value valueRan boundRan materialised ofType, sqlIn, ← anyTrue_eq_iff numerals]
  cases negated with
  | true =>
    simp only [if_true]
    constructor
    · intro same
      have undone := congrArg notValue same
      rwa [notValue_notValue, notValue_notValue] at undone
    · exact congrArg notValue
  | false => rfl

/-- Running the subqueries of a statement first changes nothing but the subqueries, and keeps their meaning: that
of a scalar one always, and that of an `IN` predicate on a value exactly when rounding does no harm there. -/
theorem resolveStatement_keeps_iff (ran : resolveStatement runSubquery stmt = .ok result) :
    StatementResolved runSubquery stmt result ∧
      (∀ statement node, ScalarValue runSubquery statement node → ScalarKept runSubquery statement node) ∧
      ∀ value subquery negated node, Membership runSubquery value subquery negated node →
        MembershipKept runSubquery value subquery negated node :=
  ⟨resolveStatement_resolved ran, fun _ _ => scalarKept_of_value, fun _ _ _ _ => membershipKept_of_list⟩

end Statements

/-! ## A decimal among doubles -/

/-- Every subquery delivers one row, with the double 1.25. -/
def oneAndAQuarter (_ : AstSelectStatement) : Except String QueryResult :=
  .ok ⟨1, [⟨1, [[.double 1.25]], by decide⟩], by decide⟩

def priceSubquery : AstSelectStatement where
  selectList := [⟨.columnRef "price" none, none⟩]
  source := ⟨["prices.parquet"], none⟩

/-- `SELECT amount FROM ... WHERE amount IN (SELECT price FROM ...)` -/
def amountStatement : AstSelectStatement where
  selectList := [⟨.columnRef "amount" none, none⟩]
  source := ⟨["amounts.parquet"], none⟩
  condition := some (.inSubquery (.columnRef "amount" none) priceSubquery false)

def amountScope : Scope :=
  .table [⟨"amount", decimalType 5 1⟩]

/-- On 1.2 the resolved predicate has the meaning of the `IN`. -/
theorem resolveStatement_keeps_price :
    ∃ result condition bound, resolveStatement oneAndAQuarter amountStatement = .ok result ∧
      result.condition = some condition ∧ bind amountScope false condition = .ok bound ∧
      StatementResolved oneAndAQuarter amountStatement result ∧
      evalIn none [.decimal 12 1] bound = sqlIn false (.decimal 12 1) [.double 1.25] := by
  obtain ⟨resolved, -, memberships⟩ :=
    resolveStatement_keeps_iff (rfl : resolveStatement oneAndAQuarter amountStatement = .ok _)
  obtain ⟨found, delivered, same⟩ := memberships (.columnRef "amount" none) priceSubquery false _ ⟨_, rfl, rfl⟩
  obtain rfl := Except.ok.inj delivered
  refine ⟨_, _, _, rfl, rfl, rfl, resolved, ?_⟩
  refine (same (bindColumnRef amountScope) false _ _ rfl rfl none [.decimal 12 1] rfl).mpr ?_
  rintro unscaled scale same
  obtain ⟨rfl, rfl⟩ := Value.decimal.inj same
  have unequal : sqlEquals (.decimal 12 1) (.double 1.25) ≠ .bool true := by decide +kernel
  constructor
  · rintro ⟨item, member, equal⟩
    obtain rfl := List.mem_singleton.mp member
    exact absurd equal unequal
  · intro _ number member
    obtain rfl := Value.double.inj (List.mem_singleton.mp member)
    exact ⟨13, by decide +kernel, by decide⟩

/-- 1.3 is found in a list whose only member is 1.25, which is no decimal with one digit. -/
theorem resolveStatement_rounds :
    ∃ result condition bound, resolveStatement oneAndAQuarter amountStatement = .ok result ∧
      result.condition = some condition ∧ bind amountScope false condition = .ok bound ∧
      evalIn none [.decimal 13 1] bound = .bool true ∧ sqlIn false (.decimal 13 1) [.double 1.25] = .bool false := by
  refine ⟨_, _, _, rfl, rfl, rfl, ?_, ?_⟩
  · decide +kernel
  · decide +kernel

end KernelLake.SubqueryResolutionProofs
