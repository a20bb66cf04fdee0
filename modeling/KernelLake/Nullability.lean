import KernelLake.BoundTypes
import KernelLake.PlanSemantics

/-!
Where NULL can stand.

A type says whether its values may be NULL, and every operator derives the flag of its result from those of
its operands. `LIKE`, `BETWEEN`, the negation of an `IN` list and the conjunctions that a planned `ON` condition
is rebuilt with are marked non-nullable whatever their operands are; a `NULL` literal takes the flag of the
operand it meets; and a column keeps the flag it has in its own table also where an outer join has widened it.
Everything else is NULL only where its type says so: as long as none of these meets a NULL, no expression of a
planned query and no column of its output is NULL without being marked.
-/

namespace KernelLake.Nullability

open KernelLake.Types KernelLake.Expressions KernelLake.Evaluation KernelLake.LogicalPlans
open KernelLake.PlanSemantics KernelLake.BoundTypes KernelLake.Library.Relations

/-! ## Values -/

def isNull : Value → Bool
  | .null => true
  | _ => false

@[simp] theorem isNull_iff {value : Value} : isNull value = true ↔ value = .null := by
  cases value <;> simp [isNull]

/-- A value is NULL only where its type is nullable. -/
def admits (type : DataType) (value : Value) : Bool :=
  type.nullable || !isNull value

theorem admits_iff {type : DataType} {value : Value} :
    admits type value = true ↔ (type.nullable = false → value ≠ .null) := by
  rw [admits, Bool.or_eq_true, Bool.not_eq_true', ← Bool.not_eq_true, isNull_iff]
  cases type.nullable <;> simp

/-- Two operands of an `AND` or `OR` leave it open: neither is the value that absorbs the other nor an error,
and one of them is NULL beside a neutral one. -/
def undecided (absorbing : Bool) (left right : Value) : Bool :=
  left ≠ .bool absorbing && right ≠ .bool absorbing && left ≠ .raised && right ≠ .raised &&
    (left ≠ .bool !absorbing || right = .null) && (right ≠ .bool !absorbing || left = .null)

/-- A value that is there but is no truth value. -/
def isForeign : Value → Bool
  | .null => false
  | .raised => false
  | .bool _ => false
  | _ => true

theorem andValue_eq_null {left right : Value} : andValue left right = .null ↔ undecided false left right = true := by
  cases left with
  | bool first =>
    cases first <;> rcases right with _ | (_ | _) | _ | _ | _ | _ | _ | _ | _ <;> simp [andValue, undecided]
  | _ =>
    cases right with
    | bool second => cases second <;> simp [andValue, undecided]
    | _ => simp [andValue, undecided]

theorem orValue_eq_null {left right : Value} : orValue left right = .null ↔ undecided true left right = true := by
  cases left with
  | bool first =>
    cases first <;> rcases right with _ | (_ | _) | _ | _ | _ | _ | _ | _ | _ <;> simp [orValue, undecided]
  | _ =>
    cases right with
    | bool second => cases second <;> simp [orValue, undecided]
    | _ => simp [orValue, undecided]

/-- Operands that are both there leave nothing open unless neither is a truth value. -/
theorem undecided_present {absorbing : Bool} {left right : Value} (leftPresent : left ≠ .null)
    (rightPresent : right ≠ .null) :
    undecided absorbing left right = true ↔ isForeign left = true ∧ isForeign right = true := by
  cases left with
  | null => exact absurd rfl leftPresent
  | bool first => cases absorbing <;> cases first <;> cases right <;> simp_all [undecided, isForeign]
  | _ =>
    cases right with
    | null => exact absurd rfl rightPresent
    | bool second => cases absorbing <;> cases second <;> simp [undecided, isForeign]
    | _ => simp [undecided, isForeign]

theorem comparePresent_known (left right : Value) : comparePresent left right ≠ .unknown := by
  unfold comparePresent
  repeat' split
  all_goals first
    | exact Comparison.noConfusion
    | unfold Comparison.ofDoubles; split <;> exact Comparison.noConfusion

theorem truth_present {op : BinaryOperator} {left right : Value} (leftPresent : left ≠ .null)
    (rightPresent : right ≠ .null) : (compareValues left right).truth op ≠ .null := by
  have known : compareValues left right ≠ .unknown := by
    unfold compareValues
    split
    · exact Comparison.noConfusion
    · exact Comparison.noConfusion
    · exact absurd rfl leftPresent
    · exact absurd rfl rightPresent
    · exact comparePresent_known _ _
  cases comparison : compareValues left right with
  | unknown => exact absurd comparison known
  | _ => exact Value.noConfusion

theorem arithmetic_present {op : BinaryOperator} {type : DataType} {left right : Value} (leftPresent : left ≠ .null)
    (rightPresent : right ≠ .null) : arithmetic op type left right ≠ .null := by
  unfold arithmetic
  split
  · exact Value.noConfusion
  · exact Value.noConfusion
  · exact absurd rfl leftPresent
  · exact absurd rfl rightPresent
  · unfold arithmeticPresent deliverInteger deliverDouble decimalArithmetic
    repeat' split
    all_goals exact Value.noConfusion

theorem castValue_present {target : DataType} {value : Value} (present : value ≠ .null) :
    castValue target value ≠ .null := by
  unfold castValue
  split
  · exact absurd rfl present
  · exact Value.noConfusion
  · unfold castPresent
    repeat' split
    all_goals exact Value.noConfusion

theorem unaryValue_present {op : UnaryOperator} {operand : Value} (present : operand ≠ .null) :
    unaryValue op operand ≠ .null := by
  cases op with
  | not => cases operand <;> simp_all [unaryValue, notValue]
  | negate =>
    cases operand with
    | null => exact absurd rfl present
    | int number =>
      simp only [unaryValue, negateValue]
      split <;> exact Value.noConfusion
    | _ => exact Value.noConfusion
  | isNull | isNotNull =>
    simp only [unaryValue]
    split <;> exact Value.noConfusion

theorem extractValue_present {part : DatePart} {value : Value} (present : value ≠ .null) :
    extractValue part value ≠ .null := by
  cases value <;> first | exact Value.noConfusion | exact absurd rfl present

theorem substringValue_present {start length : Int} {value : Value} (present : value ≠ .null) :
    substringValue start length value ≠ .null := by
  cases value <;> first | exact Value.noConfusion | exact absurd rfl present

theorem likeValue_eq_null {pattern : String} {negated : Bool} {value : Value} :
    likeValue pattern negated value = .null ↔ value = .null := by
  cases value <;> simp [likeValue]

/-! ## Parts -/

mutual

/-- Whether every part of an expression passes a test, on the group and the row it is evaluated on: an
aggregate's argument on every row of the group. -/
def everyPart (test : Option (List Row) → Row → Expression → Bool) (group : Option (List Row)) (row : Row) :
    Expression → Bool
  | .column name columnIndex type => test group row (.column name columnIndex type)
  | .literal value type => test group row (.literal value type)
  | .binary op left right type =>
    test group row (.binary op left right type) && (everyPart test group row left && everyPart test group row right)
  | .unary op operand type => test group row (.unary op operand type) && everyPart test group row operand
  | .cast operand type => test group row (.cast operand type) && everyPart test group row operand
  | .extract part operand type => test group row (.extract part operand type) && everyPart test group row operand
  | .substring operand start length type =>
    test group row (.substring operand start length type) && everyPart test group row operand
  | .between value lower upper =>
    test group row (.between value lower upper) &&
      (everyPart test group row value && everyPart test group row lower && everyPart test group row upper)
  | .like value pattern negated => test group row (.like value pattern negated) && everyPart test group row value
  | .caseWhen branches type => test group row (.caseWhen branches type) && everyBranchPart test group row branches
  | .aggregate function argument type =>
    test group row (.aggregate function argument type) &&
      (group.getD []).all (fun member => everyPart test none member argument)
  | .countStar type => test group row (.countStar type)

def everyBranchPart (test : Option (List Row) → Row → Expression → Bool) (group : Option (List Row)) (row : Row) :
    CaseBranches → Bool
  | .done => true
  | .otherwise result => everyPart test group row result
  | .when condition result rest =>
    everyPart test group row condition && everyPart test group row result && everyBranchPart test group row rest

end

theorem and_mono {first first' second second' : Bool} (here : first = true → first' = true)
    (there : second = true → second' = true) (both : (first && second) = true) : (first' && second') = true :=
  Bool.and_eq_true_iff.mpr ((Bool.and_eq_true_iff.mp both).imp here there)

theorem all_mono {α : Type} {first second : α → Bool} {members : List α}
    (weaker : ∀ member, first member = true → second member = true) (each : members.all first = true) :
    members.all second = true :=
  List.all_eq_true.mpr (fun member isMember => weaker member (List.all_eq_true.mp each member isMember))

section Weaker

variable {first second : Option (List Row) → Row → Expression → Bool}

mutual

/-- Parts that pass a test pass a weaker one. -/
theorem everyPart_mono (weaker : ∀ group row expression, first group row expression = true →
    second group row expression = true) : (expression : Expression) → (group : Option (List Row)) → (row : Row) →
    everyPart first group row expression = true → everyPart second group row expression = true
  | .column .., group, row | .literal .., group, row | .countStar _, group, row => weaker group row _
  | .binary _ left right _, group, row =>
    and_mono (weaker group row _)
      (and_mono (everyPart_mono weaker left group row) (everyPart_mono weaker right group row))
  | .unary _ operand _, group, row | .cast operand _, group, row | .extract _ operand _, group, row
  | .substring operand _ _ _, group, row | .like operand _ _, group, row =>
    and_mono (weaker group row _) (everyPart_mono weaker operand group row)
  | .between value lower upper, group, row =>
    and_mono (weaker group row _) (and_mono (and_mono (everyPart_mono weaker value group row)
      (everyPart_mono weaker lower group row)) (everyPart_mono weaker upper group row))
  | .caseWhen branches _, group, row =>
    and_mono (weaker group row _) (everyBranchPart_mono weaker branches group row)
  | .aggregate _ argument _, group, row =>
    and_mono (weaker group row _) (all_mono (everyPart_mono weaker argument none))

theorem everyBranchPart_mono (weaker : ∀ group row expression, first group row expression = true →
    second group row expression = true) : (branches : CaseBranches) → (group : Option (List Row)) → (row : Row) →
    everyBranchPart first group row branches = true → everyBranchPart second group row branches = true
  | .done, _, _ => id
  | .otherwise result, group, row => everyPart_mono weaker result group row
  | .when condition result rest, group, row =>
    and_mono (and_mono (everyPart_mono weaker condition group row) (everyPart_mono weaker result group row))
      (everyBranchPart_mono weaker rest group row)

end

end Weaker

/-- A part is NULL only where its type says so. -/
def marked (group : Option (List Row)) (row : Row) (expression : Expression) : Bool :=
  admits expression.resultType (evalIn group row expression)

/-- A part that meets a NULL of which its type takes no account, over rows of a schema. -/
def overlooks (schema : Schema) (group : Option (List Row)) (row : Row) : Expression → Bool
  | .column _ columnIndex type =>
    !type.nullable && (schema[columnIndex]?).any (fun field => field.type.nullable) &&
      isNull (row.getD columnIndex .raised)
  | .literal value type => !type.nullable && isNull (literalValue value type)
  | .unary .not operand type =>
    !type.nullable && operand.resultType.nullable && isNull (evalIn group row operand)
  | .binary .and left right type =>
    !type.nullable &&
      ((left.resultType.nullable || right.resultType.nullable) &&
          undecided false (evalIn group row left) (evalIn group row right) ||
        isForeign (evalIn group row left) && isForeign (evalIn group row right))
  | .binary .or left right type =>
    !type.nullable && isForeign (evalIn group row left) && isForeign (evalIn group row right)
  | .between value lower upper =>
    undecided false
      ((compareValues (evalIn group row value) (evalIn group row lower)).truth .greaterEqual)
      ((compareValues (evalIn group row value) (evalIn group row upper)).truth .lessEqual)
  | .like value _ _ => isNull (evalIn group row value)
  | _ => false

/-! ## Flags -/

/-- A type is nullable if one of the given types is. -/
def Covers (type : DataType) (operands : List DataType) : Prop :=
  type.nullable = false → ∀ operand ∈ operands, operand.nullable = false

def hasElse : CaseBranches → Bool
  | .done => false
  | .otherwise _ => true
  | .when _ _ rest => hasElse rest

mutual

/-- Every operator but those that are marked non-nullable in any case has the flag its operands call for. -/
def Flagged : Expression → Prop
  | .column .. => True
  | .literal .. => True
  | .binary op left right type =>
    (op ≠ .and → Covers type [left.resultType, right.resultType]) ∧ Flagged left ∧ Flagged right
  | .unary op operand type => (op = .negate → Covers type [operand.resultType]) ∧ Flagged operand
  | .cast operand type => Covers type [operand.resultType] ∧ Flagged operand
  | .extract _ operand type => Covers type [operand.resultType] ∧ Flagged operand
  | .substring operand _ _ type => Covers type [operand.resultType] ∧ Flagged operand
  | .between value lower upper => Flagged value ∧ Flagged lower ∧ Flagged upper
  | .like value _ _ => Flagged value
  | .caseWhen branches type =>
    Covers type (resultTypes branches) ∧ (type.nullable = false → hasElse branches = true) ∧
      BranchesFlagged branches
  | .aggregate function argument type =>
    (type.nullable = false → function = .count ∨ function = .countDistinct) ∧ Flagged argument
  | .countStar _ => True

def BranchesFlagged : CaseBranches → Prop
  | .done => True
  | .otherwise result => Flagged result
  | .when condition result rest => Flagged condition ∧ Flagged result ∧ BranchesFlagged rest

end

theorem covers_single {type operand : DataType} :
    Covers type [operand] ↔ (type.nullable = false → operand.nullable = false) := by
  simp [Covers]

theorem covers_pair {type first second : DataType} :
    Covers type [first, second] ↔
      (type.nullable = false → first.nullable = false ∧ second.nullable = false) := by
  simp [Covers]

/-! ## Expressions -/

/-- NULL stands only in columns whose fields are nullable. -/
def NullsWithin (schema : Schema) (row : Row) : Prop :=
  ∀ columnIndex, isNull (row.getD columnIndex .raised) = true →
    (schema[columnIndex]?).any (fun field => field.type.nullable) = true

section Expressions

variable {schema : Schema} {group : Option (List Row)} {row : Row}

theorem marked_of_everyPart {expression : Expression} (each : everyPart marked group row expression = true) :
    marked group row expression = true := by
  cases expression with
  | column | literal | countStar => exact each
  | _ => exact (Bool.and_eq_true_iff.mp each).1

/-- A part whose type and value are given. -/
theorem present_of_everyPart {expression : Expression} (each : everyPart marked group row expression = true)
    (strict : expression.resultType.nullable = false) : evalIn group row expression ≠ .null :=
  admits_iff.mp (marked_of_everyPart each) strict

/-- A node that is NULL only where its type says so, given that its parts are. -/
theorem marked_of_present {expression : Expression} (overlooksNothing : overlooks schema group row expression = false)
    (present : expression.resultType.nullable = false → evalIn group row expression ≠ .null) :
    marked group row expression = !overlooks schema group row expression := by
  rw [overlooksNothing]
  exact admits_iff.mpr present

theorem marked_column {name : String} {columnIndex : Nat} {type : DataType} (within : NullsWithin schema row) :
    marked group row (.column name columnIndex type) =
      !overlooks schema group row (.column name columnIndex type) := by
  have nullable := within columnIndex
  rw [marked, admits, overlooks, evalIn, Expression.resultType]
  cases null : isNull (row.getD columnIndex .raised) with
  | true => rw [nullable null, Bool.and_true, Bool.and_true, Bool.not_not, Bool.not_true, Bool.or_false]
  | false => rw [Bool.and_false, Bool.not_false, Bool.or_true]

attribute [local simp] evalIn

theorem marked_literal {value : LiteralStorage} {type : DataType} :
    marked group row (.literal value type) = !overlooks schema group row (.literal value type) := by
  rw [marked, admits, overlooks, evalIn, Expression.resultType, Bool.not_and, Bool.not_not]

/-- Operands that a conjunction or a disjunction takes account of can only fail to be truth values. -/
theorem marked_logical {op : BinaryOperator} {left right : Expression} {type : DataType} {absorbing : Bool}
    (open_iff : binaryValue op type (evalIn group row left) (evalIn group row right) = .null ↔
      undecided absorbing (evalIn group row left) (evalIn group row right) = true)
    (leftPresent : left.resultType.nullable = false → evalIn group row left ≠ .null)
    (rightPresent : right.resultType.nullable = false → evalIn group row right ≠ .null) :
    marked group row (.binary op left right type) = !(!type.nullable &&
      ((left.resultType.nullable || right.resultType.nullable) &&
          undecided absorbing (evalIn group row left) (evalIn group row right) ||
        isForeign (evalIn group row left) && isForeign (evalIn group row right))) := by
  have foreign : isForeign (evalIn group row left) = true → isForeign (evalIn group row right) = true →
      undecided absorbing (evalIn group row left) (evalIn group row right) = true := by
    intro leftForeign rightForeign
    refine (undecided_present ?_ ?_).mpr ⟨leftForeign, rightForeign⟩
    · intro null
      rw [null] at leftForeign
      cases leftForeign
    · intro null
      rw [null] at rightForeign
      cases rightForeign
  rw [← isNull_iff, ← Bool.eq_iff_iff] at open_iff
  rw [marked, admits, Expression.resultType, evalIn, open_iff]
  cases type.nullable with
  | true => rfl
  | false =>
    cases leftNullable : left.resultType.nullable with
    | true => grind
    | false =>
      cases rightNullable : right.resultType.nullable with
      | true => grind
      | false =>
        have present := @undecided_present absorbing _ _ (leftPresent leftNullable) (rightPresent rightNullable)
        grind

theorem marked_binary {op : BinaryOperator} {left right : Expression} {type : DataType}
    (covers : op ≠ .and → Covers type [left.resultType, right.resultType])
    (leftPresent : left.resultType.nullable = false → evalIn group row left ≠ .null)
    (rightPresent : right.resultType.nullable = false → evalIn group row right ≠ .null) :
    marked group row (.binary op left right type) = !overlooks schema group row (.binary op left right type) := by
  cases op with
  | and => exact marked_logical andValue_eq_null leftPresent rightPresent
  | or =>
    have logical : marked group row (.binary .or left right type) = _ :=
      marked_logical orValue_eq_null leftPresent rightPresent
    rw [logical, overlooks]
    cases strict : type.nullable with
    | true => rfl
    | false =>
      obtain ⟨leftStrict, rightStrict⟩ := covers_pair.mp (covers BinaryOperator.noConfusion) strict
      rw [leftStrict, rightStrict]
      rfl
  | add | subtract | multiply | divide =>
    refine marked_of_present rfl (fun strict => ?_)
    obtain ⟨leftStrict, rightStrict⟩ := covers_pair.mp (covers BinaryOperator.noConfusion) strict
    exact arithmetic_present (leftPresent leftStrict) (rightPresent rightStrict)
  | _ =>
    refine marked_of_present rfl (fun strict => ?_)
    obtain ⟨leftStrict, rightStrict⟩ := covers_pair.mp (covers BinaryOperator.noConfusion) strict
    exact truth_present (leftPresent leftStrict) (rightPresent rightStrict)

theorem marked_unary {op : UnaryOperator} {operand : Expression} {type : DataType}
    (covers : op = .negate → Covers type [operand.resultType])
    (present : operand.resultType.nullable = false → evalIn group row operand ≠ .null) :
    marked group row (.unary op operand type) = !overlooks schema group row (.unary op operand type) := by
  cases op with
  | not =>
    have same : isNull (notValue (evalIn group row operand)) = isNull (evalIn group row operand) := by
      cases evalIn group row operand <;> rfl
    rw [marked, admits, overlooks, Expression.resultType, evalIn, unaryValue, same]
    cases operandNullable : operand.resultType.nullable with
    | true => rw [Bool.and_true, Bool.not_and, Bool.not_not]
    | false =>
      have notNull : isNull (evalIn group row operand) = false := by
        rw [← Bool.not_eq_true, isNull_iff]
        exact present operandNullable
      rw [notNull, Bool.and_false, Bool.not_false, Bool.or_true]
  | negate =>
    refine marked_of_present rfl (fun strict => ?_)
    exact unaryValue_present (present (covers_single.mp (covers rfl) strict))
  | isNull | isNotNull =>
    refine marked_of_present rfl (fun _ => ?_)
    rw [evalIn, unaryValue]
    split <;> exact Value.noConfusion

theorem marked_between {value lower upper : Expression} :
    marked group row (.between value lower upper) = !overlooks schema group row (.between value lower upper) := by
  have same (left right : Value) : isNull (andValue left right) = undecided false left right :=
    Bool.eq_iff_iff.mpr (isNull_iff.trans andValue_eq_null)
  rw [marked, admits, overlooks, evalIn, same]
  rfl

theorem marked_like {value : Expression} {pattern : String} {negated : Bool} :
    marked group row (.like value pattern negated) = !overlooks schema group row (.like value pattern negated) := by
  rw [marked, admits, overlooks, evalIn]
  cases evalIn group row value <;> rfl

/-- A `CASE` with an `ELSE` is NULL only if a result is. -/
theorem branches_present : (branches : CaseBranches) → everyBranchPart marked group row branches = true →
    hasElse branches = true → (∀ type ∈ resultTypes branches, type.nullable = false) →
    evalBranchesIn group row branches ≠ .null
  | .done, _, closed, _ => by cases closed
  | .otherwise result, each, _, strict => present_of_everyPart each (strict _ (List.mem_singleton.mpr rfl))
  | .when condition result rest, each, closed, strict => by
    obtain ⟨firstEach, restEach⟩ := Bool.and_eq_true_iff.mp each
    obtain ⟨resultStrict, restStrict⟩ := List.forall_mem_cons.mp strict
    rw [evalBranchesIn]
    split
    · exact present_of_everyPart (Bool.and_eq_true_iff.mp firstEach).2 resultStrict
    · exact Value.noConfusion
    · exact branches_present rest restEach closed restStrict

theorem aggregateValues_present {function : AggregateFunction} {type : DataType} {values : List Value}
    (counts : function = .count ∨ function = .countDistinct) : aggregateValues function type values ≠ .null := by
  unfold aggregateValues
  split
  · exact Value.noConfusion
  · rcases counts with rfl | rfl <;> exact Value.noConfusion

theorem marked_aggregate {function : AggregateFunction} {argument : Expression} {type : DataType}
    (counts : type.nullable = false → function = .count ∨ function = .countDistinct) :
    marked group row (.aggregate function argument type) =
      !overlooks schema group row (.aggregate function argument type) := by
  refine marked_of_present rfl (fun strict => ?_)
  cases group with
  | none => exact Value.noConfusion
  | some rows => exact aggregateValues_present (counts strict)

theorem marked_countStar {type : DataType} :
    marked group row (.countStar type) = !overlooks schema group row (.countStar type) := by
  refine marked_of_present rfl (fun _ => ?_)
  cases group <;> exact Value.noConfusion

/-- Tests that agree on the members of a list agree on the list. -/
theorem all_eq_all {α : Type} {first second : α → Bool} {members : List α}
    (same : ∀ member ∈ members, first member = second member) : members.all first = members.all second := by
  rw [Bool.eq_iff_iff, List.all_eq_true, List.all_eq_true]
  exact forall₂_congr (fun member isMember => by rw [same member isMember])

/-- Two tests agree beside parts under which they do. -/
theorem and_eq_and {first second parts : Bool} (same : parts = true → first = second) :
    (first && parts) = (second && parts) := by
  cases parts with
  | true => rw [same rfl]
  | false => rw [Bool.and_false, Bool.and_false]

end Expressions

/-- A part is spared: it meets no NULL that its type overlooks. -/
def spared (schema : Schema) (group : Option (List Row)) (row : Row) (expression : Expression) : Bool :=
  !overlooks schema group row expression

mutual

/-- Over rows whose schema marks their NULLs, every part of a flagged expression marks its own exactly if none
overlooks one. -/
theorem everyPart_marked (schema : Schema) : (expression : Expression) → Flagged expression →
    (group : Option (List Row)) → (row : Row) → (∀ other ∈ row :: group.getD [], NullsWithin schema other) →
    everyPart marked group row expression = everyPart (spared schema) group row expression
  | .column .., _, group, row, within => marked_column (within row (List.mem_cons_self ..))
  | .literal .., _, group, row, _ => marked_literal
  | .binary op left right type, ⟨covers, leftFlagged, rightFlagged⟩, group, row, within => by
    rw [everyPart, everyPart, ← everyPart_marked schema left leftFlagged group row within,
      ← everyPart_marked schema right rightFlagged group row within]
    refine and_eq_and (fun parts => ?_)
    obtain ⟨leftEach, rightEach⟩ := Bool.and_eq_true_iff.mp parts
    exact marked_binary covers (present_of_everyPart leftEach) (present_of_everyPart rightEach)
  | .unary op operand type, ⟨covers, flagged⟩, group, row, within => by
    rw [everyPart, everyPart, ← everyPart_marked schema operand flagged group row within]
    exact and_eq_and (fun each => marked_unary covers (present_of_everyPart each))
  | .cast operand type, ⟨covers, flagged⟩, group, row, within => by
    rw [everyPart, everyPart, ← everyPart_marked schema operand flagged group row within]
    refine and_eq_and (fun each => marked_of_present rfl (fun strict => ?_))
    exact castValue_present (present_of_everyPart each (covers_single.mp covers strict))
  | .extract part operand type, ⟨covers, flagged⟩, group, row, within => by
    rw [everyPart, everyPart, ← everyPart_marked schema operand flagged group row within]
    refine and_eq_and (fun each => marked_of_present rfl (fun strict => ?_))
    exact extractValue_present (present_of_everyPart each (covers_single.mp covers strict))
  | .substring operand start length type, ⟨covers, flagged⟩, group, row, within => by
    rw [everyPart, everyPart, ← everyPart_marked schema operand flagged group row within]
    refine and_eq_and (fun each => marked_of_present rfl (fun strict => ?_))
    exact substringValue_present (present_of_everyPart each (covers_single.mp covers strict))
  | .between value lower upper, ⟨valueFlagged, lowerFlagged, upperFlagged⟩, group, row, within => by
    rw [everyPart, everyPart, ← everyPart_marked schema value valueFlagged group row within,
      ← everyPart_marked schema lower lowerFlagged group row within,
      ← everyPart_marked schema upper upperFlagged group row within]
    exact and_eq_and (fun _ => marked_between)
  | .like value pattern negated, flagged, group, row, within => by
    rw [everyPart, everyPart, ← everyPart_marked schema value flagged group row within]
    exact and_eq_and (fun _ => marked_like)
  | .caseWhen branches type, ⟨covers, closed, flagged⟩, group, row, within => by
    rw [everyPart, everyPart, ← everyBranchPart_marked schema branches flagged group row within]
    refine and_eq_and (fun each => marked_of_present rfl (fun strict => ?_))
    exact branches_present branches each (closed strict) (covers strict)
  | .aggregate function argument type, ⟨counts, flagged⟩, group, row, within => by
    have arguments : (group.getD []).all (fun member => everyPart marked none member argument) =
        (group.getD []).all (fun member => everyPart (spared schema) none member argument) :=
      all_eq_all (fun member isMember => everyPart_marked schema argument flagged none member
        (List.forall_mem_singleton.mpr (within member (List.mem_cons_of_mem _ isMember))))
    rw [everyPart, everyPart, arguments]
    exact and_eq_and (fun _ => marked_aggregate counts)
  | .countStar type, _, group, row, _ => @marked_countStar schema group row type

theorem everyBranchPart_marked (schema : Schema) : (branches : CaseBranches) → BranchesFlagged branches →
    (group : Option (List Row)) → (row : Row) → (∀ other ∈ row :: group.getD [], NullsWithin schema other) →
    everyBranchPart marked group row branches = everyBranchPart (spared schema) group row branches
  | .done, _, _, _, _ => rfl
  | .otherwise result, flagged, group, row, within => everyPart_marked schema result flagged group row within
  | .when condition result rest, ⟨conditionFlagged, resultFlagged, restFlagged⟩, group, row, within => by
    rw [everyBranchPart, everyBranchPart, everyPart_marked schema condition conditionFlagged group row within,
      everyPart_marked schema result resultFlagged group row within,
      everyBranchPart_marked schema rest restFlagged group row within]

end

/-! ## Plans -/

/-- NULL stands in a row only where the fields of its schema are nullable. -/
def rowMarked (schema : Schema) (row : Row) : Bool :=
  (schema.zip row).all (fun (field, value) => admits field.type value)

/-- Whether every expression of a plan passes a test on whatever it is evaluated on: on the rows of its input,
whose schema the test is told, and an aggregate on the groups of these. -/
def everyRow (tables : Tables) (test : Schema → Option (List Row) → Row → Expression → Bool) :
    LogicalPlan → Bool
  | .scan _ => true
  | .join left right leftKeyIndex rightKeyIndex _ residualPredicate =>
    residualPredicate.toList.all (fun predicate =>
      (innerJoin (joinMatches leftKeyIndex rightKeyIndex none) (rows tables left) (rows tables right)).all
        (fun pair => test (left.outputSchema ++ right.outputSchema) none (pair.1 ++ pair.2) predicate)) &&
      (everyRow tables test left && everyRow tables test right)
  | .filter child predicate =>
    (rows tables child).all (fun row => test child.outputSchema none row predicate) && everyRow tables test child
  | .projection child items =>
    (rows tables child).all (fun row => items.all (fun item => test child.outputSchema none row item.expr)) &&
      everyRow tables test child
  | .aggregate child groupBy aggregates =>
    ((rows tables child).all (fun row => groupBy.all (fun item => test child.outputSchema none row item.expr)) &&
        (aggregateGroups groupBy (rows tables child)).all (fun group =>
          aggregates.all (fun item => test child.outputSchema (some group.2) [] item.expr))) &&
      everyRow tables test child
  | .sort child keys =>
    (rows tables child).all (fun row => keys.all (fun key => test child.outputSchema none row key.expr)) &&
      everyRow tables test child
  | .limit child _ => everyRow tables test child

theorem everyRow_mono {tables : Tables} {first second : Schema → Option (List Row) → Row → Expression → Bool}
    (weaker : ∀ schema group row expression, first schema group row expression = true →
      second schema group row expression = true) {plan : LogicalPlan} :
    everyRow tables first plan = true → everyRow tables second plan = true := by
  induction plan with
  | scan source => exact id
  | join left right leftKeyIndex rightKeyIndex joinType residualPredicate leftHypothesis rightHypothesis =>
    exact and_mono (all_mono (fun predicate => all_mono (fun pair => weaker _ _ _ predicate)))
      (and_mono leftHypothesis rightHypothesis)
  | filter child predicate hypothesis => exact and_mono (all_mono (fun row => weaker _ _ row predicate)) hypothesis
  | projection child items hypothesis =>
    exact and_mono (all_mono (fun row => all_mono (fun item => weaker _ _ row item.expr))) hypothesis
  | aggregate child groupBy aggregates hypothesis =>
    exact and_mono (and_mono (all_mono (fun row => all_mono (fun item => weaker _ _ row item.expr)))
      (all_mono (fun group => all_mono (fun item => weaker _ _ _ item.expr)))) hypothesis
  | sort child keys hypothesis =>
    exact and_mono (all_mono (fun row => all_mono (fun key => weaker _ _ row key.expr))) hypothesis
  | limit child limit hypothesis => exact hypothesis

/-- Every expression of a plan, and every column of its output, is NULL only where its type is nullable. -/
def nullsMarked (tables : Tables) (plan : LogicalPlan) : Bool :=
  everyRow tables (fun _ => everyPart marked) plan && (rows tables plan).all (rowMarked plan.outputSchema)

/-- No part of an expression of a plan overlooks a NULL. -/
def nullsSpared (tables : Tables) (plan : LogicalPlan) : Bool :=
  everyRow tables (fun schema => everyPart (spared schema)) plan

/-- Every expression of a plan is flagged. -/
def PlanFlagged : LogicalPlan → Prop
  | .scan _ => True
  | .join left right _ _ _ residualPredicate =>
    PlanFlagged left ∧ PlanFlagged right ∧ ∀ predicate ∈ residualPredicate.toList, Flagged predicate
  | .filter child predicate => PlanFlagged child ∧ Flagged predicate
  | .projection child items => PlanFlagged child ∧ ∀ item ∈ items, Flagged item.expr
  | .aggregate child groupBy aggregates => PlanFlagged child ∧ ∀ item ∈ groupBy ++ aggregates, Flagged item.expr
  | .sort child keys => PlanFlagged child ∧ ∀ key ∈ keys, Flagged key.expr
  | .limit child _ => PlanFlagged child

/-! ### Rows -/

theorem rowMarked_of_conforms {schema : Schema} {row : Row} (fits : conforms schema row = true) :
    rowMarked schema row = true := by
  induction schema generalizing row with
  | nil => rfl
  | cons field fields hypothesis =>
    cases row with
    | nil => rfl
    | cons value values =>
      obtain ⟨hasType, restFits⟩ := Bool.and_eq_true_iff.mp fits
      refine Bool.and_eq_true_iff.mpr ⟨?_, hypothesis restFits⟩
      cases value with
      | null => exact Bool.or_eq_true_iff.mpr (.inl hasType)
      | _ => exact Bool.or_eq_true_iff.mpr (.inr rfl)

theorem rowMarked_append {leftSchema rightSchema : Schema} {left right : Row}
    (sameLength : left.length = leftSchema.length) :
    rowMarked (leftSchema ++ rightSchema) (left ++ right) =
      (rowMarked leftSchema left && rowMarked rightSchema right) := by
  rw [rowMarked, List.zip_append sameLength.symm, List.all_append]
  rfl

theorem rowMarked_widened (schema : Schema) (row : Row) : rowMarked (schema.map widened) row = true := by
  refine List.all_eq_true.mpr (fun ⟨field, value⟩ member => ?_)
  obtain ⟨narrow, _, rfl⟩ := List.mem_map.mp (List.of_mem_zip member).1
  rfl

theorem rowMarked_projectRow {items : List NamedExpression} {row : Row}
    (each : ∀ item ∈ items, marked none row item.expr = true) :
    rowMarked (namedFields items) (projectRow items row) = true := by
  refine List.all_eq_true.mpr (fun pair member => ?_)
  rw [namedFields, projectRow, List.zip_map'] at member
  obtain ⟨item, isItem, rfl⟩ := List.mem_map.mp member
  exact each item isItem

theorem nullsWithin_of_rowMarked {schema : Schema} {row : Row} (sameLength : row.length = schema.length)
    (isMarked : rowMarked schema row = true) : NullsWithin schema row := by
  intro columnIndex null
  rw [List.getD_eq_getElem?_getD] at null
  cases isValue : row[columnIndex]? with
  | none =>
    rw [isValue] at null
    cases null
  | some value =>
    rw [isValue] at null
    have inSchema : columnIndex < schema.length := sameLength ▸ (List.getElem?_eq_some_iff.mp isValue).1
    have isField := List.getElem?_eq_getElem inSchema
    have paired : (schema.zip row)[columnIndex]? = some (schema[columnIndex], value) :=
      List.getElem?_zip_eq_some.mpr ⟨isField, isValue⟩
    have admitted := List.all_eq_true.mp isMarked _ (List.mem_of_getElem? paired)
    rw [isField]
    refine (Bool.or_eq_true_iff.mp admitted).resolve_right (fun present => ?_)
    rw [show isNull value = true from null] at present
    cases present

/-- The key of a group is that of a row, or there are no keys. -/
theorem groupKey_of_row {groupBy : List NamedExpression} {input : List Row} {group : Row × List Row}
    (member : group ∈ aggregateGroups groupBy input) :
    (∀ row ∈ group.2, row ∈ input) ∧
      ((group.1 = [] ∧ groupBy = []) ∨ ∃ row ∈ input, group.1 = projectRow groupBy row) := by
  unfold aggregateGroups at member
  split at member
  · rename_i empty
    obtain rfl := List.mem_singleton.mp member
    exact ⟨fun _ isRow => isRow, .inl ⟨rfl, List.isEmpty_iff.mp empty⟩⟩
  · obtain ⟨key, inKeys, rfl⟩ := List.mem_map.mp member
    obtain ⟨row, isRow, rfl⟩ := List.mem_map.mp (mem_distinct.mp inKeys)
    exact ⟨fun _ isMember => (List.mem_filter.mp isMember).1, .inr ⟨row, isRow, rfl⟩⟩

theorem rowMarked_groupOutput {groupBy aggregates : List NamedExpression} {input : List Row}
    {group : Row × List Row} (member : group ∈ aggregateGroups groupBy input)
    (keys : ∀ row ∈ input, ∀ item ∈ groupBy, marked none row item.expr = true)
    (calls : ∀ item ∈ aggregates, marked (some group.2) [] item.expr = true) :
    rowMarked (namedFields groupBy ++ namedFields aggregates) (groupOutput aggregates group) = true := by
  have sameLength : group.1.length = (namedFields groupBy).length := by
    rw [length_groupKey member, namedFields, List.length_map]
  rw [groupOutput, rowMarked_append sameLength]
  refine Bool.and_eq_true_iff.mpr ⟨?_, List.all_eq_true.mpr (fun pair isPair => ?_)⟩
  · rcases (groupKey_of_row member).2 with ⟨noKey, rfl⟩ | ⟨row, isRow, isKey⟩
    · rfl
    · rw [isKey]
      exact rowMarked_projectRow (keys row isRow)
  · rw [namedFields, List.zip_map'] at isPair
    obtain ⟨item, isItem, rfl⟩ := List.mem_map.mp isPair
    exact calls item isItem

theorem rowMarked_joinRows {on : Row → Row → Bool} {joinType : JoinType} {left right : List Row}
    {leftSchema rightSchema : Schema} {width : Nat} (leftLength : ∀ row ∈ left, row.length = leftSchema.length)
    (leftMarked : ∀ row ∈ left, rowMarked leftSchema row = true)
    (rightMarked : ∀ row ∈ right, rowMarked rightSchema row = true) :
    ∀ row ∈ joinRows on joinType width left right,
      rowMarked (joinSchema leftSchema rightSchema joinType) row = true := by
  intro row member
  cases joinType with
  | inner =>
    obtain ⟨pair, inJoin, rfl⟩ := List.mem_map.mp member
    obtain ⟨inLeft, inRight, _⟩ := mem_innerJoin.mp inJoin
    rw [joinSchema, rowMarked_append (leftLength _ inLeft), leftMarked _ inLeft, rightMarked _ inRight]
    rfl
  | leftOuter =>
    -- Whatever stands on the right side, its fields are widened.
    obtain ⟨pair, inJoin, rfl⟩ := List.mem_map.mp member
    have inLeft := mem_outerJoin_left inJoin
    rw [joinSchema, nullExtended, rowMarked_append (leftLength _ inLeft), leftMarked _ inLeft, rowMarked_widened]
    rfl
  | leftSemi => exact leftMarked row (List.mem_of_mem_filter member)
  | leftAnti => exact leftMarked row (List.mem_of_mem_filter member)

/-- A plan whose expressions are marked returns marked rows. -/
theorem rows_marked {tables : Tables} {plan : LogicalPlan}
    (each : everyRow tables (fun _ => everyPart marked) plan = true) :
    ∀ row ∈ rows tables plan, rowMarked plan.outputSchema row = true := by
  induction plan with
  | scan source =>
    intro row member
    exact rowMarked_of_conforms (tables.conforming _ _ row member)
  | join left right leftKeyIndex rightKeyIndex joinType residualPredicate leftMarked rightMarked =>
    obtain ⟨_, sides⟩ := Bool.and_eq_true_iff.mp each
    obtain ⟨leftEach, rightEach⟩ := Bool.and_eq_true_iff.mp sides
    exact rowMarked_joinRows (rows_length tables left) (leftMarked leftEach) (rightMarked rightEach)
  | filter child predicate childMarked =>
    intro row member
    exact childMarked (Bool.and_eq_true_iff.mp each).2 row (List.mem_of_mem_filter member)
  | projection child items _ =>
    intro row member
    obtain ⟨input, isInput, rfl⟩ := List.mem_map.mp member
    have items := List.all_eq_true.mp (List.all_eq_true.mp (Bool.and_eq_true_iff.mp each).1 input isInput)
    exact rowMarked_projectRow (fun item isItem => marked_of_everyPart (items item isItem))
  | aggregate child groupBy aggregates _ =>
    intro row member
    obtain ⟨group, isGroup, rfl⟩ := List.mem_map.mp member
    obtain ⟨keys, calls⟩ := Bool.and_eq_true_iff.mp (Bool.and_eq_true_iff.mp each).1
    refine rowMarked_groupOutput isGroup (fun input isInput item isItem => ?_) (fun item isItem => ?_)
    · exact marked_of_everyPart (List.all_eq_true.mp (List.all_eq_true.mp keys input isInput) item isItem)
    · exact marked_of_everyPart (List.all_eq_true.mp (List.all_eq_true.mp calls group isGroup) item isItem)
  | sort child keys childMarked =>
    intro row member
    exact childMarked (Bool.and_eq_true_iff.mp each).2 row ((List.mem_insertionSort _).mp member)
  | limit child limit childMarked =>
    intro row member
    exact childMarked each row (List.mem_of_mem_take member)

theorem rows_within {tables : Tables} {plan : LogicalPlan}
    (each : everyRow tables (fun _ => everyPart marked) plan = true) :
    ∀ row ∈ rows tables plan, NullsWithin plan.outputSchema row :=
  fun row member => nullsWithin_of_rowMarked (rows_length tables plan row member) (rows_marked each row member)

/-! ### Expressions of a plan -/

theorem nullsWithin_nil (schema : Schema) : NullsWithin schema [] := by
  intro columnIndex null
  cases null

/-- Over the rows of a marked plan a flagged expression marks its NULLs exactly if it overlooks none. -/
theorem everyPart_marked_row {tables : Tables} {plan : LogicalPlan}
    (each : everyRow tables (fun _ => everyPart marked) plan = true) {row : Row} (member : row ∈ rows tables plan)
    {expression : Expression} (flagged : Flagged expression) :
    everyPart marked none row expression = everyPart (spared plan.outputSchema) none row expression :=
  everyPart_marked _ expression flagged none row (List.forall_mem_singleton.mpr (rows_within each row member))

/-- The expressions of a flagged plan mark their NULLs exactly if none of their parts overlooks one. -/
theorem everyRow_marked {tables : Tables} {plan : LogicalPlan} (flagged : PlanFlagged plan) :
    everyRow tables (fun _ => everyPart marked) plan = nullsSpared tables plan := by
  unfold nullsSpared
  induction plan with
  | scan source => rfl
  | join left right leftKeyIndex rightKeyIndex joinType residualPredicate leftSame rightSame =>
    obtain ⟨leftFlagged, rightFlagged, residualFlagged⟩ := flagged
    rw [everyRow, everyRow, ← leftSame leftFlagged, ← rightSame rightFlagged]
    refine and_eq_and (fun sides => all_eq_all (fun predicate isResidual => all_eq_all (fun pair isPair => ?_)))
    obtain ⟨leftEach, rightEach⟩ := Bool.and_eq_true_iff.mp sides
    obtain ⟨inLeft, inRight, _⟩ := mem_innerJoin.mp isPair
    have leftLength := rows_length tables left pair.1 inLeft
    refine everyPart_marked _ predicate (residualFlagged predicate isResidual) none _
      (List.forall_mem_singleton.mpr (nullsWithin_of_rowMarked ?_ ?_))
    · rw [List.length_append, List.length_append, leftLength, rows_length tables right pair.2 inRight]
      rfl
    · rw [rowMarked_append leftLength, rows_marked leftEach _ inLeft, rows_marked rightEach _ inRight]
      rfl
  | filter child predicate childSame =>
    obtain ⟨childFlagged, predicateFlagged⟩ := flagged
    rw [everyRow, everyRow, ← childSame childFlagged]
    exact and_eq_and (fun each => all_eq_all (fun row member => everyPart_marked_row each member predicateFlagged))
  | projection child items childSame =>
    obtain ⟨childFlagged, itemsFlagged⟩ := flagged
    rw [everyRow, everyRow, ← childSame childFlagged]
    exact and_eq_and (fun each => all_eq_all (fun row member => all_eq_all (fun item isItem =>
      everyPart_marked_row each member (itemsFlagged item isItem))))
  | aggregate child groupBy aggregates childSame =>
    obtain ⟨childFlagged, itemsFlagged⟩ := flagged
    obtain ⟨keysFlagged, callsFlagged⟩ := List.forall_mem_append.mp itemsFlagged
    rw [everyRow, everyRow, ← childSame childFlagged]
    refine and_eq_and (fun each => congrArg₂ (· && ·) ?_ ?_)
    · exact all_eq_all (fun row member => all_eq_all (fun item isItem =>
        everyPart_marked_row each member (keysFlagged item isItem)))
    · refine all_eq_all (fun group isGroup => all_eq_all (fun item isItem => ?_))
      refine everyPart_marked _ item.expr (callsFlagged item isItem) _ _
        (List.forall_mem_cons.mpr ⟨nullsWithin_nil _, fun row member => ?_⟩)
      exact rows_within each row ((groupKey_of_row isGroup).1 row member)
  | sort child keys childSame =>
    obtain ⟨childFlagged, keysFlagged⟩ := flagged
    rw [everyRow, everyRow, ← childSame childFlagged]
    exact and_eq_and (fun each => all_eq_all (fun row member => all_eq_all (fun key isKey =>
      everyPart_marked_row each member (keysFlagged key isKey))))
  | limit child limit childSame => exact childSame flagged

/-- The NULLs of a flagged plan and of its output are marked exactly if none is overlooked. -/
theorem nullsMarked_eq {tables : Tables} {plan : LogicalPlan} (flagged : PlanFlagged plan) :
    nullsMarked tables plan = nullsSpared tables plan := by
  rw [nullsMarked, ← everyRow_marked flagged]
  refine Bool.eq_iff_iff.mpr ⟨fun both => (Bool.and_eq_true_iff.mp both).1, fun each => ?_⟩
  exact Bool.and_eq_true_iff.mpr ⟨each, List.all_eq_true.mpr (rows_marked each)⟩

end KernelLake.Nullability
