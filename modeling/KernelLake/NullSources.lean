import Mathlib.Data.List.GetD
import KernelLake.EvaluationTypes
import KernelLake.Nullability

/-!
Where a NULL can come from.

A column of a table may be NULL where a row of the table is. A left join makes every column of its right side so as
soon as a row of its left side has no match. An expression may be NULL where an operand may, where a `CASE` may choose
no branch, and where it aggregates. Thus the tables and the shape of a plan tell of each expression whether it may be
NULL, and none is NULL of which they do not.
-/

namespace KernelLake.NullSources

open KernelLake.Types KernelLake.Expressions KernelLake.Evaluation KernelLake.LogicalPlans
open KernelLake.PlanSemantics KernelLake.BoundTypes KernelLake.EvaluationTypes KernelLake.Nullability
open KernelLake.Library.Relations

/-! ## Values -/

/-- What is known of the values of a column or an expression: whether one may be NULL, and whether all others are
truth values. -/
structure Facts where
  mayBeNull : Bool
  isTruth : Bool

def Facts.either (first second : Facts) : Facts :=
  ⟨first.mayBeNull || second.mayBeNull, first.isTruth && second.isTruth⟩

/-- A column that is not there raises an error. -/
def missing : Facts := ⟨false, true⟩

/-- A value is as the facts say. -/
structure Describes (facts : Facts) (value : Value) : Prop where
  null : isNull value = true → facts.mayBeNull = true
  truth : facts.isTruth = true → isForeign value = false

theorem describes_raised (facts : Facts) : Describes facts .raised :=
  ⟨fun null => Bool.noConfusion null, fun _ => rfl⟩

theorem describes_left {first second : Facts} {value : Value} (described : Describes first value) :
    Describes (first.either second) value :=
  ⟨fun null => Bool.or_eq_true_iff.mpr (.inl (described.null null)),
    fun truth => described.truth (Bool.and_eq_true_iff.mp truth).1⟩

theorem describes_right {first second : Facts} {value : Value} (described : Describes second value) :
    Describes (first.either second) value :=
  ⟨fun null => Bool.or_eq_true_iff.mpr (.inr (described.null null)),
    fun truth => described.truth (Bool.and_eq_true_iff.mp truth).2⟩

theorem isForeign_of_bool {value : Value} (boolean : inhabits .boolean value = true) : isForeign value = false := by
  cases value <;> first | rfl | cases boolean

/-! ## Expressions -/

mutual

/-- What the columns of a row tell of the value of an expression on it. -/
def factsOf (columns : List Facts) : Expression → Facts
  | .column _ columnIndex _ => columns.getD columnIndex missing
  | .literal value type => ⟨isNull (literalValue value type), !isForeign (literalValue value type)⟩
  | .binary op left right _ =>
    let operands := (factsOf columns left).either (factsOf columns right)
    if isLogical op then
      -- Operands neither of which is a truth value leave the operator open.
      ⟨operands.mayBeNull || !((factsOf columns left).isTruth || (factsOf columns right).isTruth), operands.isTruth⟩
    else ⟨operands.mayBeNull, !isArithmetic op⟩
  | .unary .not operand _ => factsOf columns operand
  | .unary .negate operand _ => ⟨(factsOf columns operand).mayBeNull, false⟩
  | .unary .isNull _ _ => ⟨false, true⟩
  | .unary .isNotNull _ _ => ⟨false, true⟩
  | .cast operand type => ⟨(factsOf columns operand).mayBeNull, type.id = .boolean⟩
  | .extract _ operand _ => ⟨(factsOf columns operand).mayBeNull, false⟩
  | .substring operand _ _ _ => ⟨(factsOf columns operand).mayBeNull, false⟩
  | .between value lower upper =>
    ⟨(factsOf columns value).mayBeNull || (factsOf columns lower).mayBeNull || (factsOf columns upper).mayBeNull,
      true⟩
  | .like value _ _ => ⟨(factsOf columns value).mayBeNull, true⟩
  | .caseWhen branches _ => branchFacts columns branches
  | .aggregate function _ _ => ⟨!(function = .count || function = .countDistinct), false⟩
  | .countStar _ => ⟨false, false⟩

def branchFacts (columns : List Facts) : CaseBranches → Facts
  | .done => ⟨true, true⟩
  | .otherwise result => factsOf columns result
  | .when _ result rest => (factsOf columns result).either (branchFacts columns rest)

end

/-- The values of a row are as the facts about its columns say. -/
def RowDescribed (columns : List Facts) (row : Row) : Prop :=
  ∀ columnIndex, Describes (columns.getD columnIndex missing) (row.getD columnIndex .raised)

section Expressions

variable {columns : List Facts} {group : Option (List Row)} {row : Row}

attribute [local simp] evalIn

theorem present_of_facts {facts : Facts} {value : Value} (described : Describes facts value)
    (never : facts.mayBeNull = false) : value ≠ .null := by
  intro null
  have mayBe := described.null (isNull_iff.mpr null)
  rw [never] at mayBe
  cases mayBe

/-- A value that is there unless one of the operands may be NULL. -/
theorem describes_of_present {facts : Facts} {value : Value}
    (present : facts.mayBeNull = false → value ≠ .null)
    (truth : facts.isTruth = true → isForeign value = false) : Describes facts value := by
  refine ⟨fun null => ?_, truth⟩
  by_contra never
  exact present (Bool.eq_false_iff.mpr never) (isNull_iff.mp null)

theorem isForeign_truth (op : BinaryOperator) (comparison : Comparison) : isForeign (comparison.truth op) = false :=
  isForeign_of_bool (inhabits_truth op comparison)

theorem isForeign_logical {op : BinaryOperator} (logical : isLogical op = true) {type : DataType} {left right : Value}
    (leftTruth : isForeign left = false) (rightTruth : isForeign right = false) :
    isForeign (binaryValue op type left right) = false := by
  have boolean {value : Value} (truth : isForeign value = false) : inhabits .boolean value = true := by
    cases value <;> first | rfl | cases truth
  cases op with
  | and => exact isForeign_of_bool (inhabits_andValue (boolean leftTruth) (boolean rightTruth))
  | or => exact isForeign_of_bool (inhabits_orValue (boolean leftTruth) (boolean rightTruth))
  | _ => cases logical

/-- Two operands that are there, one of them a truth value, leave no logical operator open. -/
theorem logical_present {op : BinaryOperator} (logical : isLogical op = true) {type : DataType} {left right : Value}
    (leftPresent : left ≠ .null) (rightPresent : right ≠ .null)
    (truth : isForeign left = false ∨ isForeign right = false) : binaryValue op type left right ≠ .null := by
  have decided (absorbing : Bool) : undecided absorbing left right ≠ true := by
    rw [Ne, undecided_present leftPresent rightPresent]
    rintro ⟨leftForeign, rightForeign⟩
    rcases truth with truth | truth
    · rw [truth] at leftForeign
      cases leftForeign
    · rw [truth] at rightForeign
      cases rightForeign
  cases op with
  | and => exact fun null => decided false (andValue_eq_null.mp null)
  | or => exact fun null => decided true (orValue_eq_null.mp null)
  | _ => cases logical

theorem describes_binary {op : BinaryOperator} {left right : Expression} {type : DataType}
    (leftDescribed : Describes (factsOf columns left) (evalIn group row left))
    (rightDescribed : Describes (factsOf columns right) (evalIn group row right)) :
    Describes (factsOf columns (.binary op left right type)) (evalIn group row (.binary op left right type)) := by
  rw [factsOf, evalIn]
  have never {anything : Facts} (same : anything.mayBeNull = ((factsOf columns left).either
      (factsOf columns right)).mayBeNull) (strict : anything.mayBeNull = false) :
      evalIn group row left ≠ .null ∧ evalIn group row right ≠ .null := by
    obtain ⟨leftNever, rightNever⟩ := Bool.or_eq_false_iff.mp (same.symm.trans strict)
    exact ⟨present_of_facts leftDescribed leftNever, present_of_facts rightDescribed rightNever⟩
  cases logical : isLogical op with
  | true =>
    rw [if_pos rfl]
    refine describes_of_present (fun strict => ?_) (fun truth => ?_)
    · obtain ⟨operands, someTruth⟩ := Bool.or_eq_false_iff.mp strict
      obtain ⟨leftPresent, rightPresent⟩ := never rfl operands
      rw [Bool.not_eq_false', Bool.or_eq_true] at someTruth
      exact logical_present logical leftPresent rightPresent
        (someTruth.imp leftDescribed.truth rightDescribed.truth)
    · obtain ⟨leftTruth, rightTruth⟩ := Bool.and_eq_true_iff.mp truth
      exact isForeign_logical logical (leftDescribed.truth leftTruth) (rightDescribed.truth rightTruth)
  | false =>
    rw [if_neg Bool.false_ne_true]
    cases op with
    | and | or => cases logical
    | add | subtract | multiply | divide =>
      refine describes_of_present (fun strict => ?_) (fun truth => by cases truth)
      obtain ⟨leftPresent, rightPresent⟩ := never rfl strict
      exact arithmetic_present leftPresent rightPresent
    | _ =>
      refine describes_of_present (fun strict => ?_) (fun _ => isForeign_truth _ _)
      obtain ⟨leftPresent, rightPresent⟩ := never rfl strict
      exact truth_present leftPresent rightPresent

theorem describes_unary {op : UnaryOperator} {operand : Expression} {type : DataType}
    (described : Describes (factsOf columns operand) (evalIn group row operand)) :
    Describes (factsOf columns (.unary op operand type)) (evalIn group row (.unary op operand type)) := by
  cases op with
  | not =>
    rw [factsOf, evalIn, unaryValue]
    have null : isNull (notValue (evalIn group row operand)) = isNull (evalIn group row operand) := by
      cases evalIn group row operand <;> rfl
    have foreign : isForeign (notValue (evalIn group row operand)) = isForeign (evalIn group row operand) := by
      cases evalIn group row operand <;> rfl
    exact ⟨null ▸ described.null, foreign ▸ described.truth⟩
  | negate =>
    refine describes_of_present (fun strict => ?_) (fun truth => by cases truth)
    exact unaryValue_present (present_of_facts described strict)
  | isNull | isNotNull =>
    rw [factsOf, evalIn, unaryValue]
    refine describes_of_present (fun _ => ?_) (fun _ => ?_)
    · split <;> exact Value.noConfusion
    · split <;> rfl

theorem describes_between {value lower upper : Expression}
    (valueDescribed : Describes (factsOf columns value) (evalIn group row value))
    (lowerDescribed : Describes (factsOf columns lower) (evalIn group row lower))
    (upperDescribed : Describes (factsOf columns upper) (evalIn group row upper)) :
    Describes (factsOf columns (.between value lower upper)) (evalIn group row (.between value lower upper)) := by
  rw [factsOf, evalIn]
  refine describes_of_present (fun strict => ?_) (fun _ => ?_)
  · obtain ⟨others, upperNever⟩ := Bool.or_eq_false_iff.mp strict
    obtain ⟨valueNever, lowerNever⟩ := Bool.or_eq_false_iff.mp others
    have valuePresent := present_of_facts valueDescribed valueNever
    exact @logical_present .and rfl booleanType _ _
      (truth_present valuePresent (present_of_facts lowerDescribed lowerNever))
      (truth_present valuePresent (present_of_facts upperDescribed upperNever)) (.inl (isForeign_truth _ _))
  · exact @isForeign_logical .and rfl booleanType _ _ (isForeign_truth _ _) (isForeign_truth _ _)

theorem isForeign_likeValue (pattern : String) (negated : Bool) (value : Value) :
    isForeign (likeValue pattern negated value) = false := by
  cases value <;> rfl

mutual

/-- The facts about an expression describe its values on rows that the facts about the columns describe. -/
theorem describes_evalIn (columns : List Facts) : (expression : Expression) → (group : Option (List Row)) →
    (row : Row) → RowDescribed columns row → Describes (factsOf columns expression) (evalIn group row expression)
  | .column _ columnIndex _, group, row, described => described columnIndex
  | .literal value type, group, row, _ => by
    rw [factsOf, evalIn]
    exact ⟨id, fun truth => by simpa using truth⟩
  | .binary op left right type, group, row, described =>
    describes_binary (describes_evalIn columns left group row described)
      (describes_evalIn columns right group row described)
  | .unary op operand type, group, row, described =>
    describes_unary (describes_evalIn columns operand group row described)
  | .cast operand type, group, row, described => by
    refine describes_of_present (fun strict => ?_) (fun truth => ?_)
    · exact castValue_present (present_of_facts (describes_evalIn columns operand group row described) strict)
    · have boolean : type.id = .boolean := of_decide_eq_true truth
      have scalar : isScalar type.id = true := by
        rw [boolean]
        rfl
      have value := inhabits_castValue scalar (evalIn group row operand)
      rw [boolean] at value
      exact isForeign_of_bool value
  | .extract part operand type, group, row, described => by
    refine describes_of_present (fun strict => ?_) (fun truth => by cases truth)
    exact extractValue_present (present_of_facts (describes_evalIn columns operand group row described) strict)
  | .substring operand start length type, group, row, described => by
    refine describes_of_present (fun strict => ?_) (fun truth => by cases truth)
    exact substringValue_present (present_of_facts (describes_evalIn columns operand group row described) strict)
  | .between value lower upper, group, row, described =>
    describes_between (describes_evalIn columns value group row described)
      (describes_evalIn columns lower group row described) (describes_evalIn columns upper group row described)
  | .like value pattern negated, group, row, described => by
    refine describes_of_present (fun strict null => ?_) (fun _ => isForeign_likeValue _ _ _)
    exact present_of_facts (describes_evalIn columns value group row described) strict (likeValue_eq_null.mp null)
  | .caseWhen branches type, group, row, described => describes_evalBranchesIn columns branches group row described
  | .aggregate function argument type, group, row, _ => by
    refine describes_of_present (fun strict => ?_) (fun truth => by cases truth)
    have counts : function = .count ∨ function = .countDistinct := by
      simpa [factsOf, or_iff_not_imp_left] using strict
    cases group with
    | none => exact Value.noConfusion
    | some rows => exact aggregateValues_present counts
  | .countStar type, group, row, _ => by
    refine describes_of_present (fun _ => ?_) (fun truth => by cases truth)
    cases group <;> exact Value.noConfusion

theorem describes_evalBranchesIn (columns : List Facts) : (branches : CaseBranches) → (group : Option (List Row)) →
    (row : Row) → RowDescribed columns row →
      Describes (branchFacts columns branches) (evalBranchesIn group row branches)
  | .done, _, _, _ => ⟨fun _ => rfl, fun _ => rfl⟩
  | .otherwise result, group, row, described => describes_evalIn columns result group row described
  | .when condition result rest, group, row, described => by
    rw [branchFacts, evalBranchesIn]
    split
    · exact describes_left (describes_evalIn columns result group row described)
    · exact describes_raised _
    · exact describes_right (describes_evalBranchesIn columns rest group row described)

end

end Expressions

/-! ## Plans -/

/-- A row of the left side of a join has no match on the right. -/
def hasUnmatched (tables : Tables) (left right : LogicalPlan) (on : Row → Row → Bool) : Bool :=
  (rows tables left).any (fun row => !(rows tables right).any (on row))

/-- What the tables and the shape of a plan tell of its columns. -/
def columnFacts (tables : Tables) : LogicalPlan → List Facts
  | .scan source =>
    source.schema.mapIdx (fun columnIndex field =>
      ⟨(tables.contents source.sourcePaths source.schema).any (fun row => isNull (row.getD columnIndex .raised)),
        field.type.id = .boolean⟩)
  | .join left right leftKeyIndex rightKeyIndex joinType residualPredicate =>
    match joinType with
    | .inner => columnFacts tables left ++ columnFacts tables right
    | .leftOuter =>
      if hasUnmatched tables left right (joinMatches leftKeyIndex rightKeyIndex residualPredicate) then
        columnFacts tables left ++ (columnFacts tables right).map (fun facts => { facts with mayBeNull := true })
      else columnFacts tables left ++ columnFacts tables right
    | .leftSemi => columnFacts tables left
    | .leftAnti => columnFacts tables left
  | .filter child _ => columnFacts tables child
  | .projection child items => items.map (fun item => factsOf (columnFacts tables child) item.expr)
  | .aggregate child groupBy aggregates =>
    (groupBy ++ aggregates).map (fun item => factsOf (columnFacts tables child) item.expr)
  | .sort child _ => columnFacts tables child
  | .limit child _ => columnFacts tables child

theorem length_columnFacts (tables : Tables) (plan : LogicalPlan) :
    (columnFacts tables plan).length = plan.width := by
  induction plan with
  | scan source => exact List.length_mapIdx
  | join left right leftKeyIndex rightKeyIndex joinType residualPredicate leftLength rightLength =>
    cases joinType with
    | inner => simp [columnFacts, leftLength, rightLength, LogicalPlan.width, LogicalPlan.outputSchema, joinSchema]
    | leftOuter =>
      unfold columnFacts
      simp only
      split <;>
        simp [leftLength, rightLength, LogicalPlan.width, LogicalPlan.outputSchema, joinSchema]
    | leftSemi | leftAnti => exact leftLength
  | filter child predicate childLength => exact childLength
  | projection child items _ => simp [columnFacts, LogicalPlan.width, LogicalPlan.outputSchema, namedFields]
  | aggregate child groupBy aggregates _ =>
    simp [columnFacts, LogicalPlan.width, LogicalPlan.outputSchema, namedFields]
  | sort child keys childLength => exact childLength
  | limit child limit childLength => exact childLength

theorem rowDescribed_append {leftColumns rightColumns : List Facts} {left right : Row}
    (sameLength : left.length = leftColumns.length) (leftDescribed : RowDescribed leftColumns left)
    (rightDescribed : RowDescribed rightColumns right) :
    RowDescribed (leftColumns ++ rightColumns) (left ++ right) := by
  intro columnIndex
  by_cases inLeft : columnIndex < left.length
  · rw [List.getD_append _ _ _ _ (sameLength ▸ inLeft), List.getD_append _ _ _ _ inLeft]
    exact leftDescribed columnIndex
  · rw [List.getD_append_right _ _ _ _ (sameLength ▸ Nat.le_of_not_lt inLeft),
      List.getD_append_right _ _ _ _ (Nat.le_of_not_lt inLeft), sameLength]
    exact rightDescribed (columnIndex - leftColumns.length)

/-- Where a side of a join is missing, its columns may be NULL. -/
theorem rowDescribed_missing (columns : List Facts) (width : Nat) (sameLength : columns.length = width) :
    RowDescribed (columns.map (fun facts => { facts with mayBeNull := true })) (List.replicate width .null) := by
  intro columnIndex
  by_cases inside : columnIndex < width
  · have isFacts : columnIndex < columns.length := sameLength ▸ inside
    simp only [List.getD_eq_getElem?_getD, List.getElem?_map, List.getElem?_eq_getElem isFacts, Option.map_some,
      Option.getD_some, List.getElem?_replicate, inside, if_true]
    exact ⟨fun _ => rfl, fun _ => rfl⟩
  · rw [List.getD_eq_default (List.replicate width _) _ (by simpa using Nat.le_of_not_lt inside)]
    exact describes_raised _

theorem rowDescribed_weakened {columns : List Facts} {row : Row} (described : RowDescribed columns row)
    (sameLength : row.length = columns.length) :
    RowDescribed (columns.map (fun facts => { facts with mayBeNull := true })) row := by
  intro columnIndex
  have here := described columnIndex
  by_cases inside : columnIndex < columns.length
  · simp only [List.getD_eq_getElem?_getD, List.getElem?_map, List.getElem?_eq_getElem inside, Option.map_some,
      Option.getD_some] at here ⊢
    exact ⟨fun _ => rfl, here.truth⟩
  · rw [List.getD_eq_default row _ (sameLength ▸ Nat.le_of_not_lt inside)]
    exact describes_raised _

theorem rowDescribed_map {columns : List Facts} {items : List NamedExpression} {group : Option (List Row)} {row : Row}
    (described : RowDescribed columns row) :
    RowDescribed (items.map (fun item => factsOf columns item.expr))
      (items.map (fun item => evalIn group row item.expr)) := by
  intro columnIndex
  simp only [List.getD_eq_getElem?_getD, List.getElem?_map]
  cases items[columnIndex]? with
  | none => exact describes_raised _
  | some item => exact describes_evalIn columns item.expr group row described

theorem rowDescribed_nil (columns : List Facts) : RowDescribed columns [] :=
  fun _ => describes_raised _

/-- A value of a boolean field is a truth value or NULL. -/
theorem isForeign_of_hasType {type : DataType} {value : Value} (boolean : type.id = .boolean)
    (typed : Value.hasType type value = true) : isForeign value = false := by
  cases value <;> simp_all [Value.hasType, isForeign, integerFits, isFloating]

theorem hasType_of_conforms {schema : Schema} {row : Row} (fits : conforms schema row = true) {columnIndex : Nat}
    {field : Field} {value : Value} (isField : schema[columnIndex]? = some field)
    (isValue : row[columnIndex]? = some value) : Value.hasType field.type value = true := by
  induction schema generalizing row columnIndex with
  | nil => cases isField
  | cons first fields hypothesis =>
    cases row with
    | nil => cases isValue
    | cons firstValue values =>
      obtain ⟨typed, restFits⟩ := Bool.and_eq_true_iff.mp fits
      cases columnIndex with
      | zero =>
        obtain rfl := Option.some.inj isField
        obtain rfl := Option.some.inj isValue
        exact typed
      | succ position => exact hypothesis restFits isField isValue

theorem rowDescribed_scan {tables : Tables} {source : LogicalScan} {row : Row}
    (member : row ∈ tables.contents source.sourcePaths source.schema) :
    RowDescribed (columnFacts tables (.scan source)) row := by
  intro columnIndex
  have fits := tables.conforming _ _ row member
  by_cases inside : columnIndex < source.schema.length
  · have inRow : columnIndex < row.length := conforms_length fits ▸ inside
    simp only [columnFacts, List.getD_eq_getElem?_getD, List.getElem?_mapIdx, List.getElem?_eq_getElem inside,
      List.getElem?_eq_getElem inRow, Option.map_some, Option.getD_some]
    refine ⟨fun null => List.any_eq_true.mpr ⟨row, member, ?_⟩, fun truth => ?_⟩
    · rwa [List.getElem?_eq_getElem inRow, Option.getD_some]
    · exact isForeign_of_hasType (of_decide_eq_true truth) (hasType_of_conforms fits
        (List.getElem?_eq_getElem inside) (List.getElem?_eq_getElem inRow))
  · rw [List.getD_eq_default row _ (by rw [conforms_length fits]; exact Nat.le_of_not_lt inside)]
    exact describes_raised _

/-- The rows of a plan are as its tables and its shape tell. -/
theorem rows_described (tables : Tables) (plan : LogicalPlan) :
    ∀ row ∈ rows tables plan, RowDescribed (columnFacts tables plan) row := by
  induction plan with
  | scan source =>
    intro row member
    exact rowDescribed_scan member
  | join left right leftKeyIndex rightKeyIndex joinType residualPredicate leftDescribed rightDescribed =>
    intro row member
    have sameLength (other : Row) (isLeft : other ∈ rows tables left) :
        other.length = (columnFacts tables left).length := by
      rw [length_columnFacts, rows_length tables left other isLeft]
    cases joinType with
    | inner =>
      obtain ⟨pair, inJoin, rfl⟩ := List.mem_map.mp member
      obtain ⟨inLeft, inRight, _⟩ := mem_innerJoin.mp inJoin
      exact rowDescribed_append (sameLength _ inLeft) (leftDescribed _ inLeft) (rightDescribed _ inRight)
    | leftOuter =>
      obtain ⟨pair, inJoin, rfl⟩ := List.mem_map.mp member
      have inLeft := mem_outerJoin_left inJoin
      cases isRight : pair.2 with
      | some other =>
        have inRight := rightDescribed other (mem_outerJoin_right inJoin isRight)
        have length : other.length = (columnFacts tables right).length := by
          rw [length_columnFacts, rows_length tables right other (mem_outerJoin_right inJoin isRight)]
        rw [nullExtended, isRight, Option.getD_some, columnFacts]
        split
        · exact rowDescribed_append (sameLength _ inLeft) (leftDescribed _ inLeft)
            (rowDescribed_weakened inRight length)
        · exact rowDescribed_append (sameLength _ inLeft) (leftDescribed _ inLeft) inRight
      | none =>
        have unmatched : hasUnmatched tables left right (joinMatches leftKeyIndex rightKeyIndex residualPredicate) =
            true :=
          List.any_eq_true.mpr ⟨pair.1, inLeft, by rw [unmatched_of_outerJoin inJoin isRight]; rfl⟩
        rw [nullExtended, isRight, Option.getD_none, columnFacts, if_pos unmatched]
        exact rowDescribed_append (sameLength _ inLeft) (leftDescribed _ inLeft)
          (rowDescribed_missing _ _ (length_columnFacts tables right))
    | leftSemi => exact leftDescribed row (List.mem_of_mem_filter member)
    | leftAnti => exact leftDescribed row (List.mem_of_mem_filter member)
  | filter child predicate childDescribed =>
    intro row member
    exact childDescribed row (List.mem_of_mem_filter member)
  | projection child items childDescribed =>
    intro row member
    obtain ⟨input, isInput, rfl⟩ := List.mem_map.mp member
    exact rowDescribed_map (childDescribed input isInput)
  | aggregate child groupBy aggregates childDescribed =>
    intro row member
    obtain ⟨group, isGroup, rfl⟩ := List.mem_map.mp member
    rw [groupOutput, columnFacts, List.map_append]
    refine rowDescribed_append ?_ ?_ (rowDescribed_map (rowDescribed_nil _))
    · rw [length_groupKey isGroup, List.length_map]
    · rcases (groupKey_of_row isGroup).2 with ⟨noKey, -⟩ | ⟨input, isInput, isKey⟩
      · rw [noKey]
        exact rowDescribed_nil _
      · rw [isKey]
        exact rowDescribed_map (childDescribed input isInput)
  | sort child keys childDescribed =>
    intro row member
    exact childDescribed row ((List.mem_insertionSort _).mp member)
  | limit child limit childDescribed =>
    intro row member
    exact childDescribed row (List.mem_of_mem_take member)

/-! ## Overlooked sources -/

/-- A part whose type takes no account of a source of NULLs: it is marked non-nullable and may be NULL all the same.
Only these kinds of parts can be the first to be. -/
def overlooksSource (schema : Schema) (columns : List Facts) : Expression → Bool
  | .column _ columnIndex type =>
    !type.nullable && (schema[columnIndex]?).any (fun field => field.type.nullable) &&
      (columns.getD columnIndex missing).mayBeNull
  | .literal value type => !type.nullable && isNull (literalValue value type)
  | .unary .not operand type =>
    !type.nullable && operand.resultType.nullable && (factsOf columns operand).mayBeNull
  | .binary .and left right type =>
    !type.nullable &&
      ((left.resultType.nullable || right.resultType.nullable) &&
          ((factsOf columns left).mayBeNull || (factsOf columns right).mayBeNull) ||
        !((factsOf columns left).isTruth || (factsOf columns right).isTruth))
  | .binary .or left right type =>
    !type.nullable && !((factsOf columns left).isTruth || (factsOf columns right).isTruth)
  | .between value lower upper => (factsOf columns (.between value lower upper)).mayBeNull
  | .like value _ _ => (factsOf columns value).mayBeNull
  | _ => false

mutual

/-- Whether every part of an expression passes a test. -/
def everyNode (test : Expression → Bool) : Expression → Bool
  | .column name columnIndex type => test (.column name columnIndex type)
  | .literal value type => test (.literal value type)
  | .binary op left right type => test (.binary op left right type) && (everyNode test left && everyNode test right)
  | .unary op operand type => test (.unary op operand type) && everyNode test operand
  | .cast operand type => test (.cast operand type) && everyNode test operand
  | .extract part operand type => test (.extract part operand type) && everyNode test operand
  | .substring operand start length type => test (.substring operand start length type) && everyNode test operand
  | .between value lower upper =>
    test (.between value lower upper) && (everyNode test value && everyNode test lower && everyNode test upper)
  | .like value pattern negated => test (.like value pattern negated) && everyNode test value
  | .caseWhen branches type => test (.caseWhen branches type) && everyBranchNode test branches
  | .aggregate function argument type => test (.aggregate function argument type) && everyNode test argument
  | .countStar type => test (.countStar type)

def everyBranchNode (test : Expression → Bool) : CaseBranches → Bool
  | .done => true
  | .otherwise result => everyNode test result
  | .when condition result rest => everyNode test condition && everyNode test result && everyBranchNode test rest

end

/-- No part of an expression overlooks a source of NULLs. -/
def foreseen (schema : Schema) (columns : List Facts) (expression : Expression) : Bool :=
  everyNode (fun part => !overlooksSource schema columns part) expression

/-- No expression of a plan overlooks a source of NULLs that the tables have. -/
def nullsForeseen (tables : Tables) : LogicalPlan → Bool
  | .scan _ => true
  | .join left right _ _ _ residualPredicate =>
    residualPredicate.toList.all
        (foreseen (left.outputSchema ++ right.outputSchema) (columnFacts tables left ++ columnFacts tables right)) &&
      (nullsForeseen tables left && nullsForeseen tables right)
  | .filter child predicate =>
    foreseen child.outputSchema (columnFacts tables child) predicate && nullsForeseen tables child
  | .projection child items =>
    items.all (fun item => foreseen child.outputSchema (columnFacts tables child) item.expr) &&
      nullsForeseen tables child
  | .aggregate child groupBy aggregates =>
    (groupBy ++ aggregates).all (fun item => foreseen child.outputSchema (columnFacts tables child) item.expr) &&
      nullsForeseen tables child
  | .sort child keys =>
    keys.all (fun key => foreseen child.outputSchema (columnFacts tables child) key.expr) && nullsForeseen tables child
  | .limit child _ => nullsForeseen tables child

section Sources

variable {schema : Schema} {columns : List Facts} {group : Option (List Row)} {row : Row}

theorem isNull_of_facts {expression : Expression} (described : RowDescribed columns row)
    (never : (factsOf columns expression).mayBeNull = false) : isNull (evalIn group row expression) = false := by
  apply Bool.eq_false_iff.mpr
  intro null
  exact present_of_facts (describes_evalIn columns expression group row described) never (isNull_iff.mp null)

/-- Of two operands one of which is known to be a truth value, one is no foreign value. -/
theorem not_bothForeign {left right : Expression} (described : RowDescribed columns row)
    (truth : ((factsOf columns left).isTruth || (factsOf columns right).isTruth) = true) :
    (isForeign (evalIn group row left) && isForeign (evalIn group row right)) = false := by
  rcases Bool.or_eq_true_iff.mp truth with truth | truth
  · rw [(describes_evalIn columns left group row described).truth truth, Bool.false_and]
  · rw [(describes_evalIn columns right group row described).truth truth, Bool.and_false]

theorem not_undecided {left right : Expression} {absorbing : Bool} (described : RowDescribed columns row)
    (never : ((factsOf columns left).mayBeNull || (factsOf columns right).mayBeNull) = false)
    (truth : ((factsOf columns left).isTruth || (factsOf columns right).isTruth) = true) :
    undecided absorbing (evalIn group row left) (evalIn group row right) = false := by
  obtain ⟨leftNever, rightNever⟩ := Bool.or_eq_false_iff.mp never
  have leftPresent := present_of_facts (describes_evalIn columns left group row described) leftNever
  have rightPresent := present_of_facts (describes_evalIn columns right group row described) rightNever
  have notForeign : (isForeign (evalIn group row left) && isForeign (evalIn group row right)) = false :=
    not_bothForeign described truth
  rw [Bool.eq_false_iff, Ne, undecided_present leftPresent rightPresent, ← Bool.and_eq_true, notForeign]
  exact Bool.false_ne_true

/-- What overlooks no source of NULLs overlooks no NULL. -/
theorem overlooks_of_source {expression : Expression} (described : RowDescribed columns row)
    (clear : overlooksSource schema columns expression = false) :
    overlooks schema group row expression = false := by
  cases expression with
  | column name columnIndex type =>
    rw [overlooks]
    rw [overlooksSource] at clear
    rcases Bool.and_eq_false_iff.mp clear with others | never
    · rw [others, Bool.false_and]
    · rw [show isNull (row.getD columnIndex .raised) = false from
        @isNull_of_facts columns group row (.column name columnIndex type) described never, Bool.and_false]
  | literal value type => exact clear
  | unary op operand type =>
    cases op with
    | not =>
      rw [overlooks]
      rw [overlooksSource] at clear
      rcases Bool.and_eq_false_iff.mp clear with others | never
      · rw [others, Bool.false_and]
      · rw [isNull_of_facts described never, Bool.and_false]
    | _ => rfl
  | binary op left right type =>
    cases op with
    | and =>
      rw [overlooks]
      rw [overlooksSource] at clear
      rcases Bool.and_eq_false_iff.mp clear with nullable | clear
      · rw [nullable, Bool.false_and]
      obtain ⟨clear, truth⟩ := Bool.or_eq_false_iff.mp clear
      rw [Bool.not_eq_false'] at truth
      rw [not_bothForeign described truth, Bool.or_false]
      rcases Bool.and_eq_false_iff.mp clear with strict | never
      · rw [strict, Bool.false_and, Bool.and_false]
      · rw [not_undecided described never truth, Bool.and_false, Bool.and_false]
    | or =>
      rw [overlooks]
      rw [overlooksSource] at clear
      rcases Bool.and_eq_false_iff.mp clear with nullable | truth
      · rw [nullable, Bool.false_and, Bool.false_and]
      · rw [Bool.not_eq_false'] at truth
        rw [Bool.and_assoc, not_bothForeign described truth, Bool.and_false]
    | _ => rfl
  | between value lower upper =>
    have present := @isNull_of_facts columns group row (.between value lower upper) described clear
    rw [evalIn, Bool.eq_false_iff, Ne, isNull_iff, andValue_eq_null] at present
    exact Bool.eq_false_iff.mpr present
  | like value pattern negated => exact isNull_of_facts described clear
  | _ => rfl

end Sources

section Parts

variable {node : Expression → Bool} {part : Option (List Row) → Row → Expression → Bool} {good : Row → Prop}

mutual

/-- What holds of every part of an expression by itself holds of it on every good row. -/
theorem everyPart_of_everyNode (here : ∀ expression group row, good row → node expression = true →
    part group row expression = true) : (expression : Expression) → (group : Option (List Row)) → (row : Row) →
    (∀ other ∈ row :: group.getD [], good other) → everyNode node expression = true →
      everyPart part group row expression = true
  | .column .., group, row, rows | .literal .., group, row, rows | .countStar _, group, row, rows =>
    here _ group row (rows row (List.mem_cons_self ..))
  | .binary _ left right _, group, row, rows =>
    and_mono (here _ group row (rows row (List.mem_cons_self ..)))
      (and_mono (everyPart_of_everyNode here left group row rows) (everyPart_of_everyNode here right group row rows))
  | .unary _ operand _, group, row, rows | .cast operand _, group, row, rows
  | .extract _ operand _, group, row, rows | .substring operand _ _ _, group, row, rows
  | .like operand _ _, group, row, rows =>
    and_mono (here _ group row (rows row (List.mem_cons_self ..))) (everyPart_of_everyNode here operand group row rows)
  | .between value lower upper, group, row, rows =>
    and_mono (here _ group row (rows row (List.mem_cons_self ..)))
      (and_mono (and_mono (everyPart_of_everyNode here value group row rows)
        (everyPart_of_everyNode here lower group row rows)) (everyPart_of_everyNode here upper group row rows))
  | .caseWhen branches _, group, row, rows =>
    and_mono (here _ group row (rows row (List.mem_cons_self ..)))
      (everyBranchPart_of_everyNode here branches group row rows)
  | .aggregate _ argument _, group, row, rows =>
    and_mono (here _ group row (rows row (List.mem_cons_self ..))) (fun each =>
      List.all_eq_true.mpr (fun member isMember => everyPart_of_everyNode here argument none member
        (List.forall_mem_singleton.mpr (rows member (List.mem_cons_of_mem _ isMember))) each))

theorem everyBranchPart_of_everyNode (here : ∀ expression group row, good row → node expression = true →
    part group row expression = true) : (branches : CaseBranches) → (group : Option (List Row)) → (row : Row) →
    (∀ other ∈ row :: group.getD [], good other) → everyBranchNode node branches = true →
      everyBranchPart part group row branches = true
  | .done, _, _, _ => id
  | .otherwise result, group, row, rows => everyPart_of_everyNode here result group row rows
  | .when condition result rest, group, row, rows =>
    and_mono (and_mono (everyPart_of_everyNode here condition group row rows)
      (everyPart_of_everyNode here result group row rows)) (everyBranchPart_of_everyNode here rest group row rows)

end

end Parts

theorem everyPart_spared {schema : Schema} {columns : List Facts} {expression : Expression}
    (clear : foreseen schema columns expression = true) {group : Option (List Row)} {row : Row}
    (described : ∀ other ∈ row :: group.getD [], RowDescribed columns other) :
    everyPart (spared schema) group row expression = true := by
  refine everyPart_of_everyNode (fun part group row rowDescribed itself => ?_) expression group row described clear
  rw [spared, overlooks_of_source rowDescribed (Bool.not_eq_true' _ ▸ itself)]
  rfl

/-- A plan that overlooks no source of NULLs overlooks no NULL. -/
theorem nullsSpared_of_foreseen {tables : Tables} {plan : LogicalPlan} (clear : nullsForeseen tables plan = true) :
    nullsSpared tables plan = true := by
  have onRow {child : LogicalPlan} {expression : Expression}
      (isForeseen : foreseen child.outputSchema (columnFacts tables child) expression = true) {row : Row}
      (member : row ∈ rows tables child) : everyPart (spared child.outputSchema) none row expression = true :=
    everyPart_spared isForeseen (List.forall_mem_singleton.mpr (rows_described tables child row member))
  unfold nullsSpared
  induction plan with
  | scan source => rfl
  | join left right leftKeyIndex rightKeyIndex joinType residualPredicate leftSpared rightSpared =>
    obtain ⟨residual, sides⟩ := Bool.and_eq_true_iff.mp clear
    obtain ⟨leftClear, rightClear⟩ := Bool.and_eq_true_iff.mp sides
    rw [everyRow, leftSpared leftClear, rightSpared rightClear, Bool.and_self, Bool.and_true]
    refine List.all_eq_true.mpr (fun predicate isResidual => List.all_eq_true.mpr (fun pair isPair => ?_))
    obtain ⟨inLeft, inRight, _⟩ := mem_innerJoin.mp isPair
    refine everyPart_spared (List.all_eq_true.mp residual predicate isResidual) (List.forall_mem_singleton.mpr ?_)
    refine rowDescribed_append ?_ (rows_described tables left _ inLeft) (rows_described tables right _ inRight)
    rw [length_columnFacts, rows_length tables left _ inLeft]
  | filter child predicate childSpared =>
    obtain ⟨here, childClear⟩ := Bool.and_eq_true_iff.mp clear
    rw [everyRow, childSpared childClear, Bool.and_true]
    exact List.all_eq_true.mpr (fun row member => onRow here member)
  | projection child items childSpared =>
    obtain ⟨here, childClear⟩ := Bool.and_eq_true_iff.mp clear
    rw [everyRow, childSpared childClear, Bool.and_true]
    exact List.all_eq_true.mpr (fun row member => List.all_eq_true.mpr (fun item isItem =>
      onRow (List.all_eq_true.mp here item isItem) member))
  | aggregate child groupBy aggregates childSpared =>
    obtain ⟨here, childClear⟩ := Bool.and_eq_true_iff.mp clear
    rw [everyRow, childSpared childClear, Bool.and_true]
    refine Bool.and_eq_true_iff.mpr ⟨?_, ?_⟩
    · exact List.all_eq_true.mpr (fun row member => List.all_eq_true.mpr (fun item isItem =>
        onRow (List.all_eq_true.mp here item (List.mem_append_left _ isItem)) member))
    · refine List.all_eq_true.mpr (fun group isGroup => List.all_eq_true.mpr (fun item isItem => ?_))
      refine everyPart_spared (List.all_eq_true.mp here item (List.mem_append_right _ isItem))
        (List.forall_mem_cons.mpr ⟨rowDescribed_nil _, fun row member => ?_⟩)
      exact rows_described tables child row ((groupKey_of_row isGroup).1 row member)
  | sort child keys childSpared =>
    obtain ⟨here, childClear⟩ := Bool.and_eq_true_iff.mp clear
    rw [everyRow, childSpared childClear, Bool.and_true]
    exact List.all_eq_true.mpr (fun row member => List.all_eq_true.mpr (fun key isKey =>
      onRow (List.all_eq_true.mp here key isKey) member))
  | limit child limit childSpared => exact childSpared clear

/-! ## Sure NULLs -/

/-- A column that holds no error, or a literal. -/
def isPlain (row : Row) : Expression → Bool
  | .column _ columnIndex _ => row.getD columnIndex .raised ≠ .raised
  | .literal .. => true
  | _ => false

/-- Read off its columns and literals, an expression is NULL on a row. -/
def surelyNull (row : Row) : Expression → Bool
  | .column _ columnIndex _ => isNull (row.getD columnIndex .raised)
  | .literal value type => isNull (literalValue value type)
  | .binary op left right _ =>
    if isLogical op then surelyNull row left && surelyNull row right
    else surelyNull row left && (surelyNull row right || isPlain row right) ||
      isPlain row left && surelyNull row right
  | .unary .not operand _ => surelyNull row operand
  | .unary .negate operand _ => surelyNull row operand
  | .cast operand _ => surelyNull row operand
  | .extract _ operand _ => surelyNull row operand
  | .substring operand _ _ _ => surelyNull row operand
  | .between value lower upper =>
    surelyNull row value && (surelyNull row lower || isPlain row lower) && (surelyNull row upper || isPlain row upper)
  | .like value _ _ => surelyNull row value
  | _ => false

section Sure

variable {group : Option (List Row)} {row : Row}

theorem literalValue_ne_raised (value : LiteralStorage) (type : DataType) : literalValue value type ≠ .raised := by
  cases value with
  | int64 number =>
    rw [literalValue]
    split
    · exact Value.noConfusion
    · split <;> exact Value.noConfusion
  | _ => exact Value.noConfusion

theorem ne_raised_of_isPlain {expression : Expression} (plain : isPlain row expression = true) :
    evalIn group row expression ≠ .raised := by
  cases expression with
  | column name columnIndex type => exact of_decide_eq_true plain
  | literal value type => exact literalValue_ne_raised value type
  | _ => cases plain

theorem compareValues_null_left {value : Value} (notRaised : value ≠ .raised) :
    compareValues .null value = .unknown := by
  cases value <;> first | rfl | exact absurd rfl notRaised

theorem compareValues_null_right {value : Value} (notRaised : value ≠ .raised) :
    compareValues value .null = .unknown := by
  cases value <;> first | rfl | exact absurd rfl notRaised

theorem arithmetic_null_left {op : BinaryOperator} {type : DataType} {value : Value} (notRaised : value ≠ .raised) :
    arithmetic op type .null value = .null := by
  cases value <;> first | rfl | exact absurd rfl notRaised

theorem arithmetic_null_right {op : BinaryOperator} {type : DataType} {value : Value} (notRaised : value ≠ .raised) :
    arithmetic op type value .null = .null := by
  cases value <;> first | rfl | exact absurd rfl notRaised

/-- A comparison or an arithmetic operation is NULL over a NULL and no error. -/
theorem binaryValue_null {op : BinaryOperator} (strict : isLogical op = false) {type : DataType} {left right : Value}
    (null : left = .null ∧ right ≠ .raised ∨ left ≠ .raised ∧ right = .null) :
    binaryValue op type left right = .null := by
  rcases null with ⟨rfl, notRaised⟩ | ⟨notRaised, rfl⟩
  · cases op with
    | and | or => cases strict
    | add | subtract | multiply | divide => exact arithmetic_null_left notRaised
    | _ =>
      change (compareValues .null _).truth _ = .null
      rw [compareValues_null_left notRaised]
      rfl
  · cases op with
    | and | or => cases strict
    | add | subtract | multiply | divide => exact arithmetic_null_right notRaised
    | _ =>
      change (compareValues _ .null).truth _ = .null
      rw [compareValues_null_right notRaised]
      rfl

theorem logical_null {op : BinaryOperator} (logical : isLogical op = true) (type : DataType) :
    binaryValue op type .null .null = .null := by
  cases op with
  | and | or => rfl
  | _ => cases logical

theorem evalIn_of_surelyNull {expression : Expression} (sure : surelyNull row expression = true) :
    evalIn group row expression = .null := by
  have notRaised {operand : Expression}
      (hypothesis : surelyNull row operand = true → evalIn group row operand = .null)
      (known : (surelyNull row operand || isPlain row operand) = true) : evalIn group row operand ≠ .raised := by
    rcases Bool.or_eq_true_iff.mp known with null | plain
    · rw [hypothesis null]
      exact Value.noConfusion
    · exact ne_raised_of_isPlain plain
  fun_induction surelyNull row expression with
  | case1 name columnIndex type => exact isNull_iff.mp sure
  | case2 value type => exact isNull_iff.mp sure
  | case3 op left right type logical leftNull rightNull =>
    obtain ⟨leftSure, rightSure⟩ := Bool.and_eq_true_iff.mp sure
    rw [evalIn, leftNull leftSure, rightNull rightSure]
    exact logical_null logical type
  | case4 op left right type strict leftNull rightNull =>
    rw [evalIn]
    refine binaryValue_null (Bool.eq_false_iff.mpr strict) ?_
    rcases Bool.or_eq_true_iff.mp sure with sure | sure
    · obtain ⟨leftSure, rightKnown⟩ := Bool.and_eq_true_iff.mp sure
      exact .inl ⟨leftNull leftSure, notRaised rightNull rightKnown⟩
    · obtain ⟨leftPlain, rightSure⟩ := Bool.and_eq_true_iff.mp sure
      exact .inr ⟨ne_raised_of_isPlain leftPlain, rightNull rightSure⟩
  | case5 operand type hypothesis => rw [evalIn, hypothesis sure]; rfl
  | case6 operand type hypothesis => rw [evalIn, hypothesis sure]; rfl
  | case7 operand type hypothesis => rw [evalIn, hypothesis sure]; rfl
  | case8 part operand type hypothesis => rw [evalIn, hypothesis sure]; rfl
  | case9 operand start length type hypothesis => rw [evalIn, hypothesis sure]; rfl
  | case10 value lower upper valueNull lowerNull upperNull =>
    obtain ⟨others, upperKnown⟩ := Bool.and_eq_true_iff.mp sure
    obtain ⟨valueSure, lowerKnown⟩ := Bool.and_eq_true_iff.mp others
    rw [evalIn, valueNull valueSure, compareValues_null_left (notRaised lowerNull lowerKnown),
      compareValues_null_left (notRaised upperNull upperKnown)]
    rfl
  | case11 value pattern negated hypothesis => rw [evalIn, hypothesis sure]; rfl
  | case12 => cases sure

end Sure

/-- A part that is NULL for sure is marked so. -/
def sureMarked (_ : Option (List Row)) (row : Row) (expression : Expression) : Bool :=
  expression.resultType.nullable || !surelyNull row expression

theorem sureMarked_of_marked {group : Option (List Row)} {row : Row} {expression : Expression}
    (isMarked : marked group row expression = true) : sureMarked group row expression = true := by
  rcases Bool.or_eq_true_iff.mp isMarked with nullable | present
  · exact Bool.or_eq_true_iff.mpr (.inl nullable)
  · refine Bool.or_eq_true_iff.mpr (.inr ?_)
    rw [Bool.not_eq_true', Bool.eq_false_iff]
    intro sure
    rw [evalIn_of_surelyNull sure] at present
    cases present

/-- No expression of a plan is sure to be NULL on a row that it is evaluated on, unless its type is nullable. -/
def sureNullsMarked (tables : Tables) (plan : LogicalPlan) : Bool :=
  everyRow tables (fun _ => everyPart sureMarked) plan

theorem sureNullsMarked_of_marked {tables : Tables} {plan : LogicalPlan} (each : nullsMarked tables plan = true) :
    sureNullsMarked tables plan = true :=
  everyRow_mono (fun _ group row expression => everyPart_mono (fun _ _ _ => sureMarked_of_marked) expression group row)
    (Bool.and_eq_true_iff.mp each).1

end KernelLake.NullSources
