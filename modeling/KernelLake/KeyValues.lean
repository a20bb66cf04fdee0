import KernelLake.KeyReading
import KernelLake.JoinBinding
import KernelLake.Library.DoubleSigns

/-!
What two expressions of one key have in common.

A key tree has a value of its own: the types that its text leaves out are those of the columns and
numbers in it, since binding gives the operands of arithmetic one type. An untyped `NULL` gives no
type, but then the operation has no result to which a type could matter. So an expression has its
tree's value, and two expressions of one tree have the same value on every row.
-/

namespace KernelLake.KeyValues

open KernelLake.Types KernelLake.Expressions KernelLake.Evaluation KernelLake.SqlAst KernelLake.Binder
open KernelLake.BoundTypes KernelLake.BindingProofs KernelLake.ExpressionText KernelLake.JoinBinding
open KernelLake.KeyTrees KernelLake.KeyReading KernelLake.Library.Results KernelLake.Library.Doubles

/-! ## The kinds of a tree -/

def booleanKind : Kind := ⟨.boolean, 0⟩
def int64Kind : Kind := ⟨.int64, 0⟩
def float64Kind : Kind := ⟨.float64, 0⟩
def stringKind : Kind := ⟨.string, 0⟩

section Meaning

variable (columns : Nat → Option Kind)

mutual

/-- The kind of a tree, given those of the columns. A `NULL` alone has none. -/
def treeKind : KeyTree → Option Kind
  | .column index => columns index
  | .null => none
  | .bool _ => some booleanKind
  | .integer _ kind => some kind
  | .double _ kind => some kind
  | .string _ => some stringKind
  | .binary op left right => if isArithmetic op then (treeKind left).or (treeKind right) else some booleanKind
  | .unary op operand => if op = .negate then treeKind operand else some booleanKind
  | .cast _ kind => some kind
  | .extract _ _ => some int64Kind
  | .substring _ _ _ => some stringKind
  | .between _ _ _ => some booleanKind
  | .like _ _ _ => some booleanKind
  | .caseWhen branches => branchKind branches
  | .aggregate function argument =>
    match function with
    | .count | .countDistinct => some int64Kind
    | .avg => some float64Kind
    | .sum | .min | .max => treeKind argument
  | .countStar => some int64Kind

def branchKind : KeyBranches → Option Kind
  | .done => none
  | .otherwise result => treeKind result
  | .when _ result rest => (treeKind result).or (branchKind rest)

end

/-- A type of a kind; of no kind in particular, any type. -/
def typeOf : Option Kind → DataType
  | none => int64Type
  | some kind => ⟨kind.id, true, none, if kind.id = .decimal then some kind.scale else none⟩

def integerValue (kind : Kind) (value : Int) : Value :=
  if kind.id = .date32 then .date value
  else if kind.id = .timestamp then .timestamp value
  else .int value

/-- A minus sign in front of a number belongs to it. -/
def negatedValue (operand : KeyTree) (value : Value) : Value :=
  match operand with
  | .integer magnitude kind => integerValue kind (-magnitude)
  | _ => negateValue value

mutual

def treeValue (group : Option (List Row)) (row : Row) : KeyTree → Value
  | .column index => row.getD index .raised
  | .null => .null
  | .bool value => .bool value
  | .integer magnitude kind => integerValue kind magnitude
  | .double magnitude _ => .double magnitude
  | .string value => .string (String.ofList value)
  | .binary op left right =>
    binaryValue op (typeOf ((treeKind columns left).or (treeKind columns right))) (treeValue group row left)
      (treeValue group row right)
  | .unary op operand =>
    if op = .negate then negatedValue operand (treeValue group row operand)
    else unaryValue op (treeValue group row operand)
  | .cast operand kind => castValue (typeOf (some kind)) (treeValue group row operand)
  | .extract part operand => extractValue part (treeValue group row operand)
  | .substring operand start length => substringValue start length (treeValue group row operand)
  | .between value lower upper =>
    andValue ((compareValues (treeValue group row value) (treeValue group row lower)).truth .greaterEqual)
      ((compareValues (treeValue group row value) (treeValue group row upper)).truth .lessEqual)
  | .like value pattern negated => likeValue (String.ofList pattern) negated (treeValue group row value)
  | .caseWhen branches => branchValue group row branches
  | .aggregate function argument =>
    match group with
    | none => .raised
    | some rows =>
      aggregateValues function
        (if function = .avg then float64Type else typeOf (treeKind columns argument))
        (rows.map (fun member => treeValue none member argument))
  | .countStar =>
    match group with
    | none => .raised
    | some rows => .int rows.length

def branchValue (group : Option (List Row)) (row : Row) : KeyBranches → Value
  | .done => .null
  | .otherwise result => treeValue group row result
  | .when condition result rest =>
    match treeValue group row condition with
    | .bool true => treeValue group row result
    | .raised => .raised
    | _ => branchValue group row rest

end

end Meaning

attribute [simp] treeKind branchKind treeValue branchValue

/-! ## Types that make no difference -/

/-- A value on which arithmetic depends on no type. -/
def Absent (value : Value) : Prop :=
  value = .null ∨ value = .raised

theorem kindOf_of_id {type : DataType} {id : TypeId} (same : type.id = id) (plain : id ≠ .decimal) :
    kindOf type = ⟨id, 0⟩ := by
  rw [kindOf, same, if_neg plain]

theorem kindOf_of_sameKind {first second : DataType} (same : sameKind first second = true) :
    kindOf first = kindOf second := by
  obtain ⟨id, _, scale⟩ := sameKind_iff.mp same
  rw [kindOf, kindOf, id, scale]

/-- Arithmetic depends on a type's identifier and scale only. -/
theorem arithmetic_congr {type other : DataType} (id : type.id = other.id)
    (scale : type.scale.getD 0 = other.scale.getD 0) (op : BinaryOperator) (left right : Value) :
    arithmetic op type left right = arithmetic op other left right := by
  have fits : integerResultFits type = integerResultFits other := by
    funext value
    rw [integerResultFits, integerResultFits, id]
  have present (left right : Value) :
      arithmeticPresent op type left right = arithmeticPresent op other left right := by
    simp only [arithmeticPresent, fits, deliverInteger, deliverDouble, id, scale]
  unfold arithmetic
  split <;> first | rfl | exact present _ _

theorem typeOf_kindOf_id (type : DataType) : (typeOf (some (kindOf type))).id = type.id := rfl

theorem typeOf_kindOf_scale {type : DataType} (scaled : Scaled type) :
    (typeOf (some (kindOf type))).scale.getD 0 = type.scale.getD 0 := by
  by_cases decimal : type.id = .decimal
  · simp [typeOf, kindOf, decimal]
  · simp [typeOf, kindOf, decimal, scaled decimal]

theorem arithmetic_kindOf {type : DataType} (scaled : Scaled type) (op : BinaryOperator) (left right : Value) :
    arithmetic op (typeOf (some (kindOf type))) left right = arithmetic op type left right :=
  arithmetic_congr (typeOf_kindOf_id type) (typeOf_kindOf_scale scaled) op left right

theorem arithmetic_absent (op : BinaryOperator) (type other : DataType) {left : Value} (absent : Absent left)
    (right : Value) : arithmetic op type left right = arithmetic op other left right ∧
      Absent (arithmetic op type left right) := by
  rcases absent with rfl | rfl
  · cases right <;> first | exact ⟨rfl, .inl rfl⟩ | exact ⟨rfl, .inr rfl⟩
  · exact ⟨rfl, .inr rfl⟩

theorem castValue_kindOf (type : DataType) (value : Value) :
    castValue (typeOf (some (kindOf type))) value = castValue type value := by
  have present : castPresent (typeOf (some (kindOf type))) value = castPresent type value := by
    unfold castPresent
    rw [typeOf_kindOf_id]
    by_cases decimal : type.id = .decimal
    · have scale : (typeOf (some (kindOf type))).scale.getD 0 = type.scale.getD 0 :=
        typeOf_kindOf_scale fun other => absurd decimal other
      rw [decimal, scale]
    · cases id : type.id <;> first | rfl | exact absurd id decimal
  unfold castValue
  split <;> first | rfl | exact present

theorem sumValues_congr {type other : DataType} (id : type.id = other.id)
    (scale : type.scale.getD 0 = other.scale.getD 0) (values : List Value) :
    sumValues type values = sumValues other values := by
  have same : arithmetic .add type = arithmetic .add other := by
    funext left right
    exact arithmetic_congr id scale .add left right
  cases values with
  | nil => rfl
  | cons first rest => rw [sumValues, sumValues, same]

/-- An aggregate that keeps its argument's type depends on no type if its values are all absent. -/
theorem aggregateValues_absent {function : AggregateFunction}
    (keeps : function = .sum ∨ function = .min ∨ function = .max) (type : DataType) {values : List Value}
    (absent : ∀ value ∈ values, Absent value) :
    aggregateValues function type values = if .raised ∈ values then .raised else .null := by
  unfold aggregateValues
  split
  · rfl
  · rename_i noneRaised
    have empty : values.filter (· ≠ .null) = [] := by
      refine List.filter_eq_nil_iff.mpr fun value member => ?_
      rcases absent value member with rfl | rfl
      · simp
      · exact absurd member noneRaised
    rw [empty]
    rcases keeps with rfl | rfl | rfl <;> rfl

/-! ## Expressions and their trees -/

section Means

variable {columns : Nat → Option Kind}

/-- A tree of a kind, or one whose values no type matters for. -/
def KindOrAbsent (kind : Option Kind) (type : DataType) (absent : Prop) : Prop :=
  kind = some (kindOf type) ∨ (kind = none ∧ absent)

/-- An expression has its tree's value, and its type is of its tree's kind. -/
structure Means (columns : Nat → Option Kind) (expression : Expression) : Prop where
  value : ∀ group row, evalIn group row expression = treeValue columns group row (treeOf expression)
  kind : KindOrAbsent (treeKind columns (treeOf expression)) expression.resultType
    (∀ group row, Absent (evalIn group row expression))

/-- The branches of a `CASE` have their trees' value, and the kind that all their results have. -/
structure BranchesMean (columns : Nat → Option Kind) (branches : CaseBranches) : Prop where
  value : ∀ group row, evalBranchesIn group row branches = branchValue columns group row (branchTree branches)
  kind : ∀ type, (∀ result ∈ resultTypes branches, sameKind result type = true) →
    KindOrAbsent (branchKind columns (branchTree branches)) type
      (∀ group row, Absent (evalBranchesIn group row branches))

theorem means_column {name : String} {columnIndex : Nat} {type : DataType}
    (known : columns columnIndex = some (kindOf type)) : Means columns (.column name columnIndex type) where
  value _ _ := by simp only [evalIn, treeOf, treeValue]
  kind := .inl (by simp only [treeOf, treeKind, known, Expression.resultType])

theorem literalValue_int64 (value : Int64) (type : DataType) :
    literalValue (.int64 value) type = integerValue (kindOf type) value.toInt := rfl

theorem means_literal {value : LiteralStorage} {type : DataType} (typed : LiteralTyped value type) :
    Means columns (.literal value type) := by
  cases value with
  | monostate => exact ⟨fun _ _ => rfl, .inr ⟨rfl, fun _ _ => .inl rfl⟩⟩
  | bool value => exact ⟨fun _ _ => rfl, .inl (congrArg some (kindOf_of_id typed (by decide)).symm)⟩
  | string value =>
    refine ⟨fun _ _ => ?_, .inl (congrArg some (kindOf_of_id typed (by decide)).symm)⟩
    simp only [evalIn, literalValue, treeOf, literalTree, treeValue, String.ofList_toList]
  | int64 value =>
    have tree : treeOf (.literal (.int64 value) type) =
        signed (value.toInt < 0) (.integer value.toInt.natAbs (kindOf type)) := by
      simp only [treeOf, literalTree]
    by_cases negative : value.toInt < 0
    · rw [signed, if_pos (decide_eq_true negative)] at tree
      refine ⟨fun _ _ => ?_, .inl (by rw [tree]; rfl)⟩
      rw [tree, evalIn, literalValue_int64]
      simp only [treeValue, if_true, negatedValue]
      congr 1
      omega
    · rw [signed, if_neg (by simpa using negative)] at tree
      refine ⟨fun _ _ => ?_, .inl (by rw [tree]; rfl)⟩
      rw [tree, evalIn, literalValue_int64]
      simp only [treeValue]
      congr 1
      omega
  | double value =>
    have tree : treeOf (.literal (.double value) type) =
        signed (isNegative value) (.double (magnitudeOf value) (kindOf type)) := by
      simp only [treeOf, literalTree]
    cases negative : isNegative value with
    | true =>
      rw [signed, if_pos negative, magnitudeOf, if_pos negative] at tree
      refine ⟨fun _ _ => ?_, .inl (by rw [tree]; rfl)⟩
      rw [tree]
      simp only [evalIn, literalValue, treeValue, if_true, negatedValue, negateValue, neg_neg_double]
    | false =>
      rw [signed, if_neg (by simp [negative]), magnitudeOf, if_neg (by simp [negative])] at tree
      refine ⟨fun _ _ => ?_, .inl (by rw [tree]; rfl)⟩
      rw [tree]
      simp only [evalIn, literalValue, treeValue]

theorem means_binary {op : BinaryOperator} {left right : Expression} {type : DataType}
    (typed : OperatorTyped op left.resultType right.resultType type) (leftMeans : Means columns left)
    (rightMeans : Means columns right) : Means columns (.binary op left right type) := by
  by_cases arithmetical : isArithmetic op = true
  · rw [OperatorTyped, if_pos arithmetical] at typed
    obtain ⟨leftSame, rightSame, scaled⟩ := typed
    have value (group : Option (List Row)) (row : Row) :
        evalIn group row (.binary op left right type) = arithmetic op type (evalIn group row left)
          (evalIn group row right) := by
      cases op <;> first | rfl | cases arithmetical
    have tree (group : Option (List Row)) (row : Row) :
        treeValue columns group row (treeOf (.binary op left right type)) =
          arithmetic op (typeOf ((treeKind columns (treeOf left)).or (treeKind columns (treeOf right))))
            (evalIn group row left) (evalIn group row right) := by
      rw [treeOf, treeValue, leftMeans.value group row, rightMeans.value group row]
      cases op <;> first | rfl | cases arithmetical
    have kind : treeKind columns (treeOf (.binary op left right type)) =
        (treeKind columns (treeOf left)).or (treeKind columns (treeOf right)) := by
      rw [treeOf, treeKind, if_pos arithmetical]
    rcases leftMeans.kind with leftKind | ⟨leftKind, leftAbsent⟩
    · rw [leftKind, Option.some_or, kindOf_of_sameKind leftSame] at tree kind
      exact ⟨fun group row => by rw [value, tree, arithmetic_kindOf scaled], .inl kind⟩
    · rw [leftKind, Option.none_or] at tree kind
      rcases rightMeans.kind with rightKind | ⟨rightKind, rightAbsent⟩
      · rw [rightKind, kindOf_of_sameKind rightSame] at tree kind
        exact ⟨fun group row => by rw [value, tree, arithmetic_kindOf scaled], .inl kind⟩
      · rw [rightKind] at kind
        refine ⟨fun group row => ?_, .inr ⟨kind, fun group row => ?_⟩⟩
        · rw [value, tree]
          exact (arithmetic_absent op _ _ (leftAbsent group row) _).1
        · rw [value]
          exact (arithmetic_absent op _ type (leftAbsent group row) _).2
  · rw [OperatorTyped, if_neg arithmetical] at typed
    refine ⟨fun group row => ?_, .inl ?_⟩
    · rw [evalIn, treeOf, treeValue, leftMeans.value group row, rightMeans.value group row]
      cases op <;> first | rfl | exact absurd rfl arithmetical
    · rw [treeOf, treeKind, if_neg arithmetical, Expression.resultType, kindOf_of_id typed (by decide)]
      rfl

/-- A number without a minus sign stands for a literal. -/
theorem literal_of_integerTree {expression : Expression} {magnitude : Nat} {kind : Kind}
    (tree : treeOf expression = .integer magnitude kind) :
    ∃ value type, expression = .literal (.int64 value) type ∧ value.toInt = magnitude ∧ kind = kindOf type := by
  cases expression with
  | literal storage type =>
    rw [treeOf] at tree
    cases storage with
    | int64 value =>
      simp only [literalTree, signed] at tree
      split at tree
      · cases tree
      · rename_i positive
        obtain ⟨rfl, rfl⟩ := KeyTree.integer.inj tree
        simp only [decide_eq_true_eq, not_lt] at positive
        exact ⟨value, type, rfl, by omega, rfl⟩
    | double value =>
      simp only [literalTree, signed] at tree
      split at tree <;> cases tree
    | _ => cases tree
  | _ =>
    simp only [treeOf] at tree
    cases tree

theorem negatedValue_treeOf {operand : Expression} (numeric : isNumeric operand.resultType.id = true)
    (means : Means columns operand) (group : Option (List Row)) (row : Row) :
    negatedValue (treeOf operand) (treeValue columns group row (treeOf operand)) =
      negateValue (evalIn group row operand) := by
  rw [means.value group row]
  cases tree : treeOf operand with
  | integer magnitude kind =>
    obtain ⟨value, type, rfl, same, rfl⟩ := literal_of_integerTree tree
    have notDate : type.id ≠ .date32 := by
      rintro isDate
      rw [Expression.resultType, isDate] at numeric
      cases numeric
    have notTimestamp : type.id ≠ .timestamp := by
      rintro isTimestamp
      rw [Expression.resultType, isTimestamp] at numeric
      cases numeric
    have plain (number : Int) : integerValue (kindOf type) number = .int number := by
      rw [integerValue, kindOf, if_neg notDate, if_neg notTimestamp]
    have fits : inInt64 (-(magnitude : Int)) = true := by
      have upper : value.toInt < 2 ^ 63 := value.toInt_lt
      have lower : -2 ^ 63 ≤ value.toInt := value.le_toInt
      simp [inInt64, int64Min, int64Max]
      omega
    simp only [negatedValue, treeValue, plain, negateValue, fits, if_true]
  | _ => rfl

theorem means_unary {op : UnaryOperator} {operand : Expression} {type : DataType}
    (typed : UnaryTyped op operand.resultType type) (means : Means columns operand) :
    Means columns (.unary op operand type) := by
  by_cases negation : op = .negate
  · subst negation
    obtain ⟨numeric, rfl⟩ := typed
    have value (group : Option (List Row)) (row : Row) :
        evalIn group row (.unary .negate operand operand.resultType) = negateValue (evalIn group row operand) := by
      simp only [evalIn, unaryValue]
    refine ⟨fun group row => ?_, ?_⟩
    · rw [value, treeOf, treeValue, if_pos rfl, negatedValue_treeOf numeric means]
    · rw [treeOf, treeKind, if_pos rfl]
      refine means.kind.imp id (And.imp_right fun absent group row => ?_)
      rw [value]
      rcases absent group row with isNull | isRaised
      · exact .inl (by rw [isNull]; rfl)
      · exact .inr (by rw [isRaised]; rfl)
  · have boolean : type.id = .boolean := by
      cases op <;> first | exact typed | exact absurd rfl negation
    refine ⟨fun group row => ?_, .inl ?_⟩
    · rw [evalIn, treeOf, treeValue, if_neg negation, means.value group row]
    · rw [treeOf, treeKind, if_neg negation, Expression.resultType, kindOf_of_id boolean (by decide)]
      rfl

theorem means_cast {operand : Expression} (type : DataType) (means : Means columns operand) :
    Means columns (.cast operand type) := by
  refine ⟨fun group row => ?_, .inl ?_⟩
  · rw [evalIn, treeOf, treeValue, castValue_kindOf, means.value group row]
  · simp only [treeOf, treeKind, Expression.resultType]

theorem means_extract {operand : Expression} {part : DatePart} {type : DataType} (typed : type.id = .int64)
    (means : Means columns operand) : Means columns (.extract part operand type) := by
  refine ⟨fun group row => ?_, .inl ?_⟩
  · rw [evalIn, treeOf, treeValue, means.value group row]
  · rw [treeOf, treeKind, Expression.resultType, kindOf_of_id typed (by decide)]
    rfl

theorem means_substring {operand : Expression} {start length : Int} {type : DataType}
    (typed : type.id = .string) (means : Means columns operand) :
    Means columns (.substring operand start length type) := by
  refine ⟨fun group row => ?_, .inl ?_⟩
  · rw [evalIn, treeOf, treeValue, means.value group row]
  · rw [treeOf, treeKind, Expression.resultType, kindOf_of_id typed (by decide)]
    rfl

theorem means_between {value lower upper : Expression} (valueMeans : Means columns value)
    (lowerMeans : Means columns lower) (upperMeans : Means columns upper) :
    Means columns (.between value lower upper) := by
  refine ⟨fun group row => ?_, .inl ?_⟩
  · rw [evalIn, treeOf, treeValue, valueMeans.value group row, lowerMeans.value group row,
      upperMeans.value group row]
  · rw [treeOf, treeKind]
    rfl

theorem means_like {value : Expression} (pattern : String) (negated : Bool) (means : Means columns value) :
    Means columns (.like value pattern negated) := by
  refine ⟨fun group row => ?_, .inl ?_⟩
  · rw [evalIn, treeOf, treeValue, means.value group row, String.ofList_toList]
  · rw [treeOf, treeKind]
    rfl

theorem means_caseWhen {branches : CaseBranches} {type : DataType}
    (typed : ∀ result ∈ resultTypes branches, sameKind result type = true)
    (means : BranchesMean columns branches) : Means columns (.caseWhen branches type) := by
  refine ⟨fun group row => ?_, ?_⟩
  · rw [evalIn, treeOf, treeValue, means.value group row]
  · rw [treeOf, treeKind]
    refine (means.kind type typed).imp id (And.imp_right fun absent group row => ?_)
    rw [evalIn]
    exact absent group row

theorem branchesMean_done : BranchesMean columns .done where
  value _ _ := rfl
  kind _ _ := .inr ⟨rfl, fun _ _ => .inl rfl⟩

theorem branchesMean_otherwise {result : Expression} (means : Means columns result) :
    BranchesMean columns (.otherwise result) where
  value group row := by rw [evalBranchesIn, branchTree, branchValue, means.value group row]
  kind type typed := by
    have same := kindOf_of_sameKind (typed result.resultType (List.mem_singleton.mpr rfl))
    rw [branchTree, branchKind]
    refine means.kind.imp (fun isKind => isKind.trans (congrArg some same))
      (And.imp_right fun absent group row => ?_)
    rw [evalBranchesIn]
    exact absent group row

theorem branchesMean_when {condition result : Expression} {rest : CaseBranches}
    (conditionMeans : Means columns condition) (resultMeans : Means columns result)
    (restMean : BranchesMean columns rest) : BranchesMean columns (.when condition result rest) where
  value group row := by
    rw [branchTree, branchValue, ← conditionMeans.value group row, ← resultMeans.value group row,
      ← restMean.value group row]
    rfl
  kind type typed := by
    obtain ⟨resultTyped, restTyped⟩ := List.forall_mem_cons.mp typed
    have same := kindOf_of_sameKind resultTyped
    rw [branchTree, branchKind]
    rcases resultMeans.kind with resultKind | ⟨resultKind, resultAbsent⟩
    · exact .inl (by rw [resultKind, Option.some_or, same])
    · rw [resultKind, Option.none_or]
      refine (restMean.kind type restTyped).imp id (And.imp_right fun restAbsent group row => ?_)
      rw [evalBranchesIn]
      split
      · exact resultAbsent group row
      · exact .inr rfl
      · exact restAbsent group row

/-- Which type an aggregate call has makes no difference among those of one kind. -/
theorem aggregateValues_treeKind {function : AggregateFunction} {argument : Expression} {type : DataType}
    (typed : CallTyped function argument.resultType type) (means : Means columns argument) (rows : List Row) :
    aggregateValues function (if function = .avg then float64Type else typeOf (treeKind columns (treeOf argument)))
        (rows.map (fun member => evalIn none member argument)) =
      aggregateValues function type (rows.map (fun member => evalIn none member argument)) := by
  cases function with
  | sum =>
    obtain ⟨same, scaled⟩ := typed
    rcases means.kind with isKind | ⟨untyped, absent⟩
    · rw [isKind, kindOf_of_sameKind same]
      simp only [aggregateValues, reduceCtorEq, if_false,
        sumValues_congr (typeOf_kindOf_id type) (typeOf_kindOf_scale scaled)]
    · have absentRows : ∀ value ∈ rows.map (fun member => evalIn none member argument), Absent value := by
        intro value member
        obtain ⟨row, _, rfl⟩ := List.mem_map.mp member
        exact absent none row
      rw [aggregateValues_absent (.inl rfl) _ absentRows, aggregateValues_absent (.inl rfl) _ absentRows]
  | avg =>
    obtain ⟨isFloat, scaled⟩ := typed
    have plain : type.scale = none := scaled (by rw [isFloat]; decide)
    have same := @sumValues_congr float64Type type isFloat.symm (by rw [plain]; rfl)
    simp only [aggregateValues, if_true, same]
  | _ => rfl

theorem means_aggregate {function : AggregateFunction} {argument : Expression} {type : DataType}
    (typed : CallTyped function argument.resultType type) (means : Means columns argument) :
    Means columns (.aggregate function argument type) := by
  have value (rows : List Row) (row : Row) : evalIn (some rows) row (.aggregate function argument type) =
      aggregateValues function type (rows.map (fun member => evalIn none member argument)) := by
    simp only [evalIn]
  have kept (keeps : function = .sum ∨ function = .min ∨ function = .max)
      (same : sameKind argument.resultType type = true) :
      KindOrAbsent (treeKind columns (treeOf argument)) type
        (∀ group row, Absent (evalIn group row (.aggregate function argument type))) := by
    refine means.kind.imp (fun isKind => isKind.trans (congrArg some (kindOf_of_sameKind same)))
      (And.imp_right fun absent group row => ?_)
    cases group with
    | none => exact .inr (by simp only [evalIn])
    | some rows =>
      rw [value, aggregateValues_absent keeps type fun value member => ?_]
      · split
        · exact .inr rfl
        · exact .inl rfl
      · obtain ⟨row, _, rfl⟩ := List.mem_map.mp member
        exact absent none row
  refine ⟨fun group row => ?_, ?_⟩
  · rw [treeOf]
    cases group with
    | none => simp only [evalIn, treeValue]
    | some rows =>
      have mapped : rows.map (fun member => treeValue columns none member (treeOf argument)) =
          rows.map (fun member => evalIn none member argument) :=
        List.map_congr_left fun member _ => (means.value none member).symm
      rw [value, treeValue, mapped, aggregateValues_treeKind typed means rows]
  · cases function with
    | count => exact .inl (congrArg some (kindOf_of_id typed (by decide)).symm)
    | countDistinct => exact .inl (congrArg some (kindOf_of_id typed (by decide)).symm)
    | avg => exact .inl (congrArg some (kindOf_of_id typed.1 (by decide)).symm)
    | sum => exact kept (.inl rfl) typed.1
    | min => exact kept (.inr (.inl rfl)) typed
    | max => exact kept (.inr (.inr rfl)) typed

theorem means_countStar {type : DataType} (typed : type.id = .int64) : Means columns (.countStar type) := by
  refine ⟨fun group row => ?_, .inl ?_⟩
  · cases group <;> simp only [evalIn, treeOf, treeValue]
  · rw [treeOf, treeKind, Expression.resultType, kindOf_of_id typed (by decide)]
    rfl

/-- A column of the kind that is known for its index. -/
def Known (columns : Nat → Option Kind) (use : ColumnUse) : Prop :=
  columns use.index = some (kindOf use.type)

mutual

/-- Every expression over known columns that has the types binding gives means its tree. -/
theorem means_of_typed : (expression : Expression) → Typed expression →
    (∀ use ∈ columnUses expression, Known columns use) → Means columns expression
  | .column name columnIndex type, _, known =>
    means_column (known ⟨name, columnIndex, type⟩ (List.mem_singleton.mpr rfl))
  | .literal _ _, typed, _ => means_literal typed
  | .binary _ left right _, typed, known =>
    have both := List.forall_mem_append.mp known
    means_binary typed.1 (means_of_typed left typed.2.1 both.1) (means_of_typed right typed.2.2 both.2)
  | .unary _ operand _, typed, known => means_unary typed.1 (means_of_typed operand typed.2 known)
  | .cast operand type, typed, known => means_cast type (means_of_typed operand typed known)
  | .extract _ operand _, typed, known => means_extract typed.1 (means_of_typed operand typed.2 known)
  | .substring operand _ _ _, typed, known =>
    means_substring typed.1 (means_of_typed operand typed.2 known)
  | .between value lower upper, typed, known =>
    have inner := List.forall_mem_append.mp known
    have both := List.forall_mem_append.mp inner.1
    means_between (means_of_typed value typed.1 both.1) (means_of_typed lower typed.2.1 both.2)
      (means_of_typed upper typed.2.2 inner.2)
  | .like value pattern negated, typed, known => means_like pattern negated (means_of_typed value typed known)
  | .caseWhen branches _, typed, known =>
    means_caseWhen typed.1 (branchesMean_of_typed branches typed.2 known)
  | .aggregate _ argument _, typed, known =>
    means_aggregate typed.1 (means_of_typed argument typed.2 known)
  | .countStar _, typed, _ => means_countStar typed

theorem branchesMean_of_typed : (branches : CaseBranches) → BranchesTyped branches →
    (∀ use ∈ branchUses branches, Known columns use) → BranchesMean columns branches
  | .done, _, _ => branchesMean_done
  | .otherwise result, typed, known => branchesMean_otherwise (means_of_typed result typed known)
  | .when condition result rest, typed, known =>
    have inner := List.forall_mem_append.mp known
    have both := List.forall_mem_append.mp inner.1
    branchesMean_when (means_of_typed condition typed.1 both.1) (means_of_typed result typed.2.1 both.2)
      (branchesMean_of_typed rest typed.2.2 inner.2)

end

end Means

/-! ## Equal keys -/

/-- The kinds of a schema's columns. -/
def schemaKinds (schema : Schema) (index : Nat) : Option Kind :=
  schema[index]?.map (fun field => kindOf field.type)

/-- An expression that binding delivers, over the columns of a schema. -/
def BoundOver (schema : Schema) (expression : Expression) : Prop :=
  (∃ (scope : Scope) (allowAggregates : Bool) (written : SqlExpr),
    bind scope allowAggregates written = .ok expression) ∧
  ∀ use ∈ columnUses expression, Known (schemaKinds schema) use

/-- What is bound against a table is bound over the table's schema. -/
theorem boundOver_table {schema : Schema} {allowAggregates : Bool} {written : SqlExpr}
    {expression : Expression} (ran : bind (.table schema) allowAggregates written = .ok expression) :
    BoundOver schema expression := by
  refine ⟨⟨_, _, _, ran⟩, fun use member => ?_⟩
  obtain ⟨⟨name, table⟩, _, column, resolved, inColumn⟩ := bindWith_sourced _ _ _ ran use member
  cases table with
  | some table => cases resolved
  | none =>
    obtain ⟨position, field, _, isField, rfl⟩ := resolveColumn_eq_ok resolved
    obtain rfl := List.mem_singleton.mp inColumn
    simp only [Known, schemaKinds, Nat.zero_add, isField, Option.map_some]

/-- What is bound against a chain of joins that all deliver their columns is bound over the chain's
schema. -/
theorem boundOver_join {sources : List JoinSource} {allowAggregates : Bool} {written : SqlExpr}
    {expression : Expression} (kept : ∀ source ∈ sources, keepsRight source.joinType = true)
    (ran : bind (.join sources) allowAggregates written = .ok expression) :
    BoundOver (chainSchema sources) expression := by
  refine ⟨⟨_, _, _, ran⟩, fun use member => ?_⟩
  obtain ⟨reference, _, column, resolved, inColumn⟩ := bindWith_sourced _ _ _ ran use member
  obtain ⟨number, position, _, source, field, held, isField, rfl⟩ := bindColumnRef_denotes resolved
  obtain rfl := List.mem_singleton.mp inColumn
  have delivered := chainSchema_at held (kept source (List.mem_of_getElem? held)) isField
  have kind : kindOf (deliveredField source.joinType field).type = kindOf field.type := by
    unfold deliveredField
    split <;> rfl
  simp only [Known, schemaKinds, Nat.zero_add, delivered, Option.map_some, kind]

theorem typed_of_boundOver {schema : Schema} {expression : Expression} (bound : BoundOver schema expression) :
    Typed expression := by
  obtain ⟨⟨scope, allowAggregates, written, ran⟩, _⟩ := bound
  refine bindWith_inherits hereditary_typed allowAggregates (fun _ => callsInherit_typed) written
    (fun reference _ column resolved => ?_) expression ran
  obtain ⟨name, index, type, rfl⟩ := bindColumnRef_column resolved
  trivial

/-- Two bound expressions of one key have one tree exactly if the places whose text is ambiguous agree,
and then they have the same value on every row. -/
theorem structuralKey_identifies {schema : Schema} {first second : Expression}
    (firstBound : BoundOver schema first) (secondBound : BoundOver schema second)
    (sameKey : structuralKey first = structuralKey second) :
    (treeOf first = treeOf second ↔ MarksAgree (marks first) (marks second)) ∧
      (MarksAgree (marks first) (marks second) →
        ∀ group row, evalIn group row first = evalIn group row second) := by
  have firstTyped := typed_of_boundOver firstBound
  have secondTyped := typed_of_boundOver secondBound
  have oneTree := treeOf_eq_of_key firstTyped secondTyped sameKey
  refine ⟨⟨fun sameTree => ?_, oneTree⟩, fun agree group row => ?_⟩
  · rw [marks_eq_treeMarks, sameTree, ← marks_eq_treeMarks]
    exact marksAgree_refl _
  · rw [(means_of_typed first firstTyped firstBound.2).value group row,
      (means_of_typed second secondTyped secondBound.2).value group row, oneTree agree]

def countsSchema : Schema := [⟨"n", int64Type false⟩]

/-- `n BETWEEN -5 AND 7`, with the minus sign in the literal. -/
def signedLiteral : SqlExpr :=
  .between (.columnRef "n" none) (.literal (.integer (-5))) (.literal (.integer 7))

/-- `n BETWEEN -5 AND 7`, with the minus sign as an operator. -/
def signedOperand : SqlExpr :=
  .between (.columnRef "n" none) (.unary .negate (.literal (.integer 5))) (.literal (.integer 7))

theorem structuralKey_identifies_signed :
    ∃ first second, bind (.table countsSchema) false signedLiteral = .ok first ∧
      bind (.table countsSchema) false signedOperand = .ok second ∧ first ≠ second ∧
      treeOf first = treeOf second ∧ eval first [.int (-5)] = eval second [.int (-5)] := by
  refine ⟨_, _, rfl, rfl, by decide +kernel, ?_⟩
  have identified := structuralKey_identifies (@boundOver_table countsSchema false signedLiteral _ rfl)
    (@boundOver_table countsSchema false signedOperand _ rfl) (by decide +kernel)
  exact ⟨identified.1.mpr (by decide +kernel), identified.2 (by decide +kernel) none _⟩

/-! ## Keys of two expressions -/

/-- Two expressions over one schema with one key and, on some row, two values. -/
def Conflated (schema : Schema) (first second : SqlExpr) : Prop :=
  ∃ boundFirst boundSecond, bind (.table schema) false first = .ok boundFirst ∧
    bind (.table schema) false second = .ok boundSecond ∧
    structuralKey boundFirst = structuralKey boundSecond ∧ ∃ row, eval boundFirst row ≠ eval boundSecond row

def flagsSchema : Schema := [⟨"a", booleanType⟩, ⟨"b", booleanType⟩, ⟨"c", booleanType⟩]

def flagRef (name : String) : SqlExpr := .columnRef name none

/-- `CASE WHEN c THEN 'a' ELSE 'b' END`. -/
def twoResults : SqlExpr :=
  .caseWhen (flagRef "c") (.literal (.string "a")) (.otherwise (.literal (.string "b")))

/-- One branch, whose result has the text of the two results above. -/
def quotedResult : SqlExpr :=
  .caseWhen (flagRef "c") (.literal (.string "a' ELSE 'b")) .done

/-- `a BETWEEN b AND (c IS NULL)`. -/
def openBound : SqlExpr :=
  .between (flagRef "a") (flagRef "b") (.unary .isNull (flagRef "c"))

/-- `(a BETWEEN b AND c) IS NULL`. -/
def openTest : SqlExpr :=
  .unary .isNull (.between (flagRef "a") (flagRef "b") (flagRef "c"))

/-- Doubles alike in six digits, a date and its day count, a text with quotes in it, and an upper bound
with a test behind it all make two expressions of one key. -/
theorem structuralKey_conflates :
    Conflated flagsSchema (.literal (.float 0.0000001)) (.literal (.float 0.0000002)) ∧
      Conflated flagsSchema (.literal (.integer 5)) (.literal (.date 5)) ∧
      Conflated flagsSchema twoResults quotedResult ∧ Conflated flagsSchema openBound openTest := by
  refine ⟨⟨_, _, rfl, rfl, by decide +kernel, [], by decide +kernel⟩,
    ⟨_, _, rfl, rfl, by decide +kernel, [], by decide +kernel⟩,
    ⟨_, _, rfl, rfl, by decide +kernel, [.null, .null, .bool false], by decide +kernel⟩,
    ⟨_, _, rfl, rfl, by decide +kernel, [.bool false, .bool false, .bool true], by decide +kernel⟩⟩

end KernelLake.KeyValues
