import KernelLake.BindingProofs

/-!
What kind of value a well-typed expression has.

An expression of integer, boolean or string type evaluates to a value of that kind, to null or to an
error, on every row whose columns do. Decimals are left out: a literal that stands for one is still the
number it was written as.
-/

namespace KernelLake.EvaluationTypes

open KernelLake.Types KernelLake.Expressions KernelLake.Evaluation KernelLake.Library.Doubles
open KernelLake.Binder KernelLake.BoundTypes KernelLake.BindingProofs

def isInteger (id : TypeId) : Bool :=
  isSigned id || isUnsigned id

def isScalar (id : TypeId) : Bool :=
  isInteger id || id = .boolean || id = .string

/-- A value of a scalar type is null, an error or of the type's kind. -/
def inhabits (id : TypeId) : Value → Bool
  | .null => true
  | .raised => true
  | .bool _ => id = .boolean
  | .int _ => isInteger id
  | .string _ => id = .string
  | _ => false

/-! ## Operators -/

theorem numeric_scalar {id : TypeId} (scalar : isScalar id = true) (numeric : isNumeric id = true) :
    isInteger id = true := by
  cases id <;> first | rfl | (cases numeric; done) | cases scalar

theorem isFloating_of_isInteger {id : TypeId} (integer : isInteger id = true) : isFloating id = false := by
  cases id <;> first | rfl | cases integer

theorem inhabits_truth (op : BinaryOperator) (comparison : Comparison) :
    inhabits .boolean (comparison.truth op) = true := by
  cases comparison <;> rfl

theorem bool_of_inhabits {value : Value} (boolean : inhabits .boolean value = true) :
    value = .null ∨ value = .raised ∨ ∃ truth, value = .bool truth := by
  cases value with
  | null => exact .inl rfl
  | raised => exact .inr (.inl rfl)
  | bool truth => exact .inr (.inr ⟨truth, rfl⟩)
  | _ => cases boolean

theorem inhabits_andValue {left right : Value} (leftBoolean : inhabits .boolean left = true)
    (rightBoolean : inhabits .boolean right = true) : inhabits .boolean (andValue left right) = true := by
  unfold andValue
  split
  · rfl
  · split
    · exact rightBoolean
    · split
      · exact leftBoolean
      · split <;> rfl

theorem inhabits_orValue {left right : Value} (leftBoolean : inhabits .boolean left = true)
    (rightBoolean : inhabits .boolean right = true) : inhabits .boolean (orValue left right) = true := by
  unfold orValue
  split
  · rfl
  · split
    · exact rightBoolean
    · split
      · exact leftBoolean
      · split <;> rfl

theorem int_of_inhabits {id : TypeId} {value : Value} (integer : isInteger id = true)
    (inhabited : inhabits id value = true) :
    value = .null ∨ value = .raised ∨ ∃ number, value = .int number := by
  cases value with
  | null => exact .inl rfl
  | raised => exact .inr (.inl rfl)
  | int number => exact .inr (.inr ⟨number, rfl⟩)
  | bool _ =>
    simp only [inhabits, decide_eq_true_eq] at inhabited
    rw [inhabited] at integer
    cases integer
  | string _ =>
    simp only [inhabits, decide_eq_true_eq] at inhabited
    rw [inhabited] at integer
    cases integer
  | _ => cases inhabited

theorem inhabits_arithmetic {op : BinaryOperator} {type : DataType} {left right : Value}
    (leftInhabits : inhabits type.id left = true) (rightInhabits : inhabits type.id right = true) :
    inhabits type.id (arithmetic op type left right) = true := by
  by_cases integer : isInteger type.id = true
  · rcases int_of_inhabits integer leftInhabits with rfl | rfl | ⟨a, rfl⟩
    · cases right <;> rfl
    · rfl
    · rcases int_of_inhabits integer rightInhabits with rfl | rfl | ⟨b, rfl⟩
      · rfl
      · rfl
      · simp only [arithmetic, arithmeticPresent, Value.integerPayload]
        split
        · rw [deliverInteger, isFloating_of_isInteger integer]
          exact integer
        · rfl
  · -- There is no arithmetic on truth values and texts.
    cases left with
    | null => cases right <;> rfl
    | raised => rfl
    | int _ => exact absurd leftInhabits integer
    | bool _ | string _ =>
      cases right with
      | int _ => exact absurd rightInhabits integer
      | _ => rfl
    | _ => cases leftInhabits

theorem inhabits_binaryValue {op : BinaryOperator} {leftType rightType type : DataType} {left right : Value}
    (typed : OperatorTyped op leftType rightType type) (operands : OperandsTyped op leftType rightType)
    (scalar : isScalar type.id = true)
    (leftInhabits : isScalar leftType.id = true → inhabits leftType.id left = true)
    (rightInhabits : isScalar rightType.id = true → inhabits rightType.id right = true) :
    inhabits type.id (binaryValue op type left right) = true := by
  cases op with
  | add | subtract | multiply | divide =>
    obtain ⟨leftSame, rightSame, _⟩ := typed
    have leftId := (sameKind_iff.mp leftSame).1
    have rightId := (sameKind_iff.mp rightSame).1
    rw [leftId] at leftInhabits
    rw [rightId] at rightInhabits
    exact inhabits_arithmetic (leftInhabits scalar) (rightInhabits scalar)
  | and =>
    have boolean : type.id = .boolean := typed
    obtain ⟨leftBoolean, rightBoolean⟩ := operands
    rw [leftBoolean] at leftInhabits
    rw [rightBoolean] at rightInhabits
    rw [boolean]
    exact inhabits_andValue (leftInhabits rfl) (rightInhabits rfl)
  | or =>
    have boolean : type.id = .boolean := typed
    obtain ⟨leftBoolean, rightBoolean⟩ := operands
    rw [leftBoolean] at leftInhabits
    rw [rightBoolean] at rightInhabits
    rw [boolean]
    exact inhabits_orValue (leftInhabits rfl) (rightInhabits rfl)
  | _ =>
    have boolean : type.id = .boolean := typed
    rw [boolean]
    exact inhabits_truth _ _

theorem inhabits_unaryValue {op : UnaryOperator} {operandType type : DataType} {operand : Value}
    (typed : UnaryTyped op operandType type) (operandTyped : OperandTyped op operandType)
    (scalar : isScalar type.id = true)
    (operandInhabits : isScalar operandType.id = true → inhabits operandType.id operand = true) :
    inhabits type.id (unaryValue op operand) = true := by
  cases op with
  | not =>
    have boolean : type.id = .boolean := typed
    have operandBoolean : operandType.id = .boolean := operandTyped
    rw [operandBoolean] at operandInhabits
    rw [boolean]
    rcases bool_of_inhabits (operandInhabits rfl) with rfl | rfl | ⟨truth, rfl⟩ <;> rfl
  | negate =>
    obtain ⟨numeric, rfl⟩ := typed
    have integer := numeric_scalar scalar numeric
    rcases int_of_inhabits integer (operandInhabits scalar) with rfl | rfl | ⟨number, rfl⟩
    · rfl
    · rfl
    · simp only [unaryValue, negateValue]
      split
      · exact integer
      · rfl
  | isNull =>
    have boolean : type.id = .boolean := typed
    rw [boolean, unaryValue]
    split <;> rfl
  | isNotNull =>
    have boolean : type.id = .boolean := typed
    rw [boolean, unaryValue]
    split <;> rfl

/-- A cast to a scalar type gives a value of the type. -/
theorem inhabits_castValue {target : DataType} (scalar : isScalar target.id = true) (operand : Value) :
    inhabits target.id (castValue target operand) = true := by
  have present (value : Value) : inhabits target.id (castPresent target value) = true := by
    cases isTarget : target.id with
    | boolean =>
      simp only [castPresent, isTarget]
      cases value <;> rfl
    | string =>
      simp only [castPresent, isTarget]
      cases value <;> rfl
    | int32 | int64 | uint32 | uint64 =>
      simp only [castPresent, isTarget]
      split
      · split <;> rfl
      · rfl
    | _ => rw [isTarget] at scalar; cases scalar
  unfold castValue
  split
  · rfl
  · rfl
  · exact present _

theorem inhabits_literalValue {value : LiteralStorage} {type : DataType} (typed : StorageTyped value type)
    (scalar : isScalar type.id = true) : inhabits type.id (literalValue value type) = true := by
  cases value with
  | monostate => rfl
  | bool _ => exact decide_eq_true typed
  | string _ => exact decide_eq_true typed
  | int64 _ =>
    rcases typed with isType | isType | isType
    · simp [literalValue, inhabits, isType, isInteger, isSigned]
    · rw [isType] at scalar
      cases scalar
    · rw [isType] at scalar
      cases scalar
  | double _ =>
    rcases typed with isType | isType
    · rw [isType] at scalar
      cases scalar
    · rw [isType] at scalar
      cases scalar

/-! ## Aggregates -/

theorem inhabits_sumValues {type : DataType} {values : List Value}
    (each : ∀ value ∈ values, inhabits type.id value = true) :
    inhabits type.id (sumValues type values) = true := by
  cases values with
  | nil => rfl
  | cons first rest =>
    simp only [sumValues]
    induction rest generalizing first with
    | nil => exact each first (List.mem_cons_self ..)
    | cons next rest hypothesis =>
      obtain ⟨firstInhabits, others⟩ := List.forall_mem_cons.mp each
      obtain ⟨nextInhabits, others⟩ := List.forall_mem_cons.mp others
      rw [List.foldl_cons]
      exact hypothesis _ (List.forall_mem_cons.mpr
        ⟨inhabits_arithmetic firstInhabits nextInhabits, others⟩)

/-- The extreme of a list is a member of it. -/
theorem extremeValue_mem {better : Ordering} {values : List Value} (nonempty : values ≠ []) :
    extremeValue better values ∈ values := by
  cases values with
  | nil => exact absurd rfl nonempty
  | cons first rest =>
    simp only [extremeValue]
    induction rest generalizing first with
    | nil => exact List.mem_cons_self ..
    | cons next rest hypothesis =>
      rw [List.foldl_cons]
      split
      · exact List.mem_cons_of_mem _ (hypothesis next (List.cons_ne_nil _ _))
      · rcases List.mem_cons.mp (hypothesis first (List.cons_ne_nil _ _)) with same | member
        · rw [same]
          exact List.mem_cons_self ..
        · exact List.mem_cons_of_mem _ (List.mem_cons_of_mem _ member)

theorem inhabits_extremeValue {better : Ordering} {id : TypeId} {values : List Value}
    (each : ∀ value ∈ values, inhabits id value = true) :
    inhabits id (extremeValue better values) = true := by
  cases values with
  | nil => rfl
  | cons first rest => exact each _ (extremeValue_mem (List.cons_ne_nil _ _))

theorem inhabits_aggregateValues {function : AggregateFunction} {argumentType type : DataType}
    {values : List Value} (typed : CallTyped function argumentType type) (scalar : isScalar type.id = true)
    (each : isScalar argumentType.id = true → ∀ value ∈ values, inhabits argumentType.id value = true) :
    inhabits type.id (aggregateValues function type values) = true := by
  unfold aggregateValues
  split
  · rfl
  · have present (same : sameKind argumentType type = true) :
        ∀ value ∈ values.filter (· ≠ .null), inhabits type.id value = true := by
      intro value member
      have sameId := (sameKind_iff.mp same).1
      rw [sameId] at each
      exact each scalar value (List.mem_of_mem_filter member)
    cases function with
    | count | countDistinct =>
      have isInt64 : type.id = .int64 := typed
      rw [isInt64]
      rfl
    | sum => exact inhabits_sumValues (present typed.1)
    | min | max => exact inhabits_extremeValue (present typed)
    | avg =>
      rw [typed.1] at scalar
      cases scalar

/-! ## Expressions -/

/-- The rows have, in the scalar columns that are used, values of the columns' kinds. -/
def Supply (rows : List Row) (uses : List ColumnUse) : Prop :=
  ∀ row ∈ rows, ∀ use ∈ uses, isScalar use.type.id = true →
    inhabits use.type.id (row.getD use.index .raised) = true

theorem supply_append {rows : List Row} {uses more : List ColumnUse} :
    Supply rows (uses ++ more) ↔ Supply rows uses ∧ Supply rows more := by
  constructor
  · intro both
    exact ⟨fun row isRow use member => both row isRow use (List.mem_append_left _ member),
      fun row isRow use member => both row isRow use (List.mem_append_right _ member)⟩
  · rintro ⟨first, second⟩ row isRow use member
    rcases List.mem_append.mp member with member | member
    · exact first row isRow use member
    · exact second row isRow use member

mutual

/-- A well-typed expression of scalar type evaluates to a value of its type, to null or to an error. -/
theorem inhabits_evalIn (group : Option (List Row)) (row : Row) : (expression : Expression) →
    WellTyped expression → Supply (row :: group.getD []) (columnUses expression) →
    isScalar expression.resultType.id = true →
    inhabits expression.resultType.id (evalIn group row expression) = true
  | .column name index type, _, supply, scalar =>
    supply row (List.mem_cons_self ..) ⟨name, index, type⟩ (List.mem_singleton.mpr rfl) scalar
  | .literal value type, typed, _, scalar => inhabits_literalValue typed scalar
  | .binary op left right type, ⟨typed, operands, leftTyped, rightTyped⟩, supply, scalar => by
    obtain ⟨leftSupply, rightSupply⟩ := supply_append.mp supply
    exact inhabits_binaryValue typed operands scalar (inhabits_evalIn group row left leftTyped leftSupply)
      (inhabits_evalIn group row right rightTyped rightSupply)
  | .unary op operand type, ⟨typed, operandTyped, inner⟩, supply, scalar =>
    inhabits_unaryValue typed operandTyped scalar (inhabits_evalIn group row operand inner supply)
  | .cast operand type, _, _, scalar => inhabits_castValue scalar _
  | .extract part operand type, ⟨isInt64, _, _⟩, _, _ => by
    rw [Expression.resultType, isInt64, evalIn]
    cases evalIn group row operand <;> rfl
  | .substring operand start length type, ⟨isString, _, _⟩, _, _ => by
    rw [Expression.resultType, isString, evalIn]
    cases evalIn group row operand <;> rfl
  | .between value lower upper, _, _, _ =>
    inhabits_andValue (inhabits_truth _ _) (inhabits_truth _ _)
  | .like value pattern negated, _, _, _ => by
    rw [evalIn]
    cases evalIn group row value <;> rfl
  | .caseWhen branches type, ⟨typed, inner⟩, supply, scalar =>
    inhabits_evalBranchesIn group row branches inner supply scalar
      (fun result member => (sameKind_iff.mp (typed result member)).1)
  | .aggregate function argument type, ⟨typed, inner⟩, supply, scalar => by
    cases group with
    | none => rfl
    | some members =>
      refine inhabits_aggregateValues typed scalar (fun argumentScalar value member => ?_)
      obtain ⟨other, isMember, rfl⟩ := List.mem_map.mp member
      refine inhabits_evalIn none other argument inner (fun same isSame => ?_) argumentScalar
      obtain rfl := List.mem_singleton.mp isSame
      exact supply _ (List.mem_cons_of_mem _ isMember)
  | .countStar type, typed, _, _ => by
    have isInt64 : type.id = .int64 := typed
    rw [Expression.resultType, isInt64]
    cases group <;> rfl

theorem inhabits_evalBranchesIn (group : Option (List Row)) (row : Row) : (branches : CaseBranches) →
    BranchesWellTyped branches → Supply (row :: group.getD []) (branchUses branches) →
    {id : TypeId} → isScalar id = true → (∀ result ∈ resultTypes branches, result.id = id) →
    inhabits id (evalBranchesIn group row branches) = true
  | .done, _, _, _, _, _ => rfl
  | .otherwise result, typed, supply, id, scalar, same => by
    have isId := same result.resultType (List.mem_singleton.mpr rfl)
    rw [evalBranchesIn, ← isId]
    exact inhabits_evalIn group row result typed supply (isId ▸ scalar)
  | .when condition result rest, ⟨_, _, resultTyped, restTyped⟩, supply, id, scalar, same => by
    obtain ⟨firstSupply, restSupply⟩ := supply_append.mp supply
    obtain ⟨_, resultSupply⟩ := supply_append.mp firstSupply
    obtain ⟨isId, others⟩ := List.forall_mem_cons.mp same
    rw [evalBranchesIn]
    split
    · rw [← isId]
      exact inhabits_evalIn group row result resultTyped resultSupply (isId ▸ scalar)
    · rfl
    · exact inhabits_evalBranchesIn group row rest restTyped restSupply scalar others

end

end KernelLake.EvaluationTypes
