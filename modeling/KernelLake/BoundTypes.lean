import KernelLake.Binder
import KernelLake.Library.Results

/-!
The types the binder gives to operators.

Operands of arithmetic have the type it is done in, all results of a `CASE` have one type, and an
aggregate call that keeps its argument's type has exactly that type. A literal takes another type only
from one numeric type to a decimal.
-/

namespace KernelLake.BoundTypes

open KernelLake.Types KernelLake.Expressions KernelLake.Evaluation KernelLake.Binder
open KernelLake.Library.Results

/-- Only a decimal has a scale. -/
def Scaled (type : DataType) : Prop :=
  type.id ≠ .decimal → type.scale = none

def LiteralTyped : LiteralStorage → DataType → Prop
  | .bool _, type => type.id = .boolean
  | .string _, type => type.id = .string
  | _, _ => True

/-- The types that binding gives to literals. -/
def StorageTyped : LiteralStorage → DataType → Prop
  | .monostate, _ => True
  | .bool _, type => type.id = .boolean
  | .string _, type => type.id = .string
  | .int64 _, type => type.id = .int64 ∨ type.id = .date32 ∨ type.id = .decimal
  | .double _, type => type.id = .float64 ∨ type.id = .decimal

def OperatorTyped (op : BinaryOperator) (left right type : DataType) : Prop :=
  if isArithmetic op then sameKind left type = true ∧ sameKind right type = true ∧ Scaled type
  else type.id = .boolean

def UnaryTyped : UnaryOperator → DataType → DataType → Prop
  | .negate, operand, type => isNumeric operand.id = true ∧ type = operand
  | _, _, type => type.id = .boolean

/-- The types that binding lets the operands of an operator have. -/
def OperandsTyped (op : BinaryOperator) (left right : DataType) : Prop :=
  if isArithmetic op then isNumeric left.id = true ∧ sameKind left right = true
  else if isLogical op then left.id = .boolean ∧ right.id = .boolean
  else sameKind left right = true

def OperandTyped : UnaryOperator → DataType → Prop
  | .not, operand => operand.id = .boolean
  | .negate, operand => isNumeric operand.id = true ∧ isUnsigned operand.id = false
  | _, _ => True

def CallTyped (function : AggregateFunction) (argument type : DataType) : Prop :=
  match function with
  | .count | .countDistinct => type.id = .int64
  | .avg => type.id = .float64 ∧ Scaled type
  | .sum => sameKind argument type = true ∧ Scaled type
  | .min | .max => sameKind argument type = true

/-- The types of a `CASE`'s results. -/
def resultTypes : CaseBranches → List DataType
  | .done => []
  | .otherwise result => [result.resultType]
  | .when _ result rest => result.resultType :: resultTypes rest

mutual

/-- Every operator of an expression has a type that binding gives it. -/
def Typed : Expression → Prop
  | .column .. => True
  | .literal value type => LiteralTyped value type
  | .binary op left right type =>
    OperatorTyped op left.resultType right.resultType type ∧ Typed left ∧ Typed right
  | .unary op operand type => UnaryTyped op operand.resultType type ∧ Typed operand
  | .cast operand _ => Typed operand
  | .extract _ operand type => type.id = .int64 ∧ Typed operand
  | .substring operand _ _ type => type.id = .string ∧ Typed operand
  | .between value lower upper => Typed value ∧ Typed lower ∧ Typed upper
  | .like value _ _ => Typed value
  | .caseWhen branches type =>
    (∀ result ∈ resultTypes branches, sameKind result type = true) ∧ BranchesTyped branches
  | .aggregate function argument type => CallTyped function argument.resultType type ∧ Typed argument
  | .countStar type => type.id = .int64

def BranchesTyped : CaseBranches → Prop
  | .done => True
  | .otherwise result => Typed result
  | .when condition result rest => Typed condition ∧ Typed result ∧ BranchesTyped rest

end

mutual

/-- Every operator of an expression has operands of the types it takes and the type it gives. -/
def WellTyped : Expression → Prop
  | .column .. => True
  | .literal value type => StorageTyped value type
  | .binary op left right type =>
    OperatorTyped op left.resultType right.resultType type ∧
      OperandsTyped op left.resultType right.resultType ∧ WellTyped left ∧ WellTyped right
  | .unary op operand type =>
    UnaryTyped op operand.resultType type ∧ OperandTyped op operand.resultType ∧ WellTyped operand
  | .cast operand _ => WellTyped operand
  | .extract _ operand type =>
    type.id = .int64 ∧ (operand.resultType.id = .date32 ∨ operand.resultType.id = .timestamp) ∧
      WellTyped operand
  | .substring operand _ _ type =>
    type.id = .string ∧ operand.resultType.id = .string ∧ WellTyped operand
  | .between value lower upper =>
    sameKind value.resultType lower.resultType = true ∧ sameKind value.resultType upper.resultType = true ∧
      WellTyped value ∧ WellTyped lower ∧ WellTyped upper
  | .like value _ _ => value.resultType.id = .string ∧ WellTyped value
  | .caseWhen branches type =>
    (∀ result ∈ resultTypes branches, sameKind result type = true) ∧ BranchesWellTyped branches
  | .aggregate function argument type =>
    CallTyped function argument.resultType type ∧ WellTyped argument
  | .countStar type => type.id = .int64

def BranchesWellTyped : CaseBranches → Prop
  | .done => True
  | .otherwise result => WellTyped result
  | .when condition result rest =>
    condition.resultType.id = .boolean ∧ WellTyped condition ∧ WellTyped result ∧ BranchesWellTyped rest

end

theorem StorageTyped.literalTyped {value : LiteralStorage} {type : DataType}
    (typed : StorageTyped value type) : LiteralTyped value type := by
  cases value with
  | bool _ => exact typed
  | string _ => exact typed
  | _ => trivial

/-- A literal of a numeric type can stand for a decimal. -/
theorem StorageTyped.retyped {value : LiteralStorage} {type target : DataType}
    (typed : StorageTyped value type) (numeric : isNumeric type.id = true) (decimal : target.id = .decimal) :
    StorageTyped value target := by
  cases value with
  | monostate => trivial
  | bool _ =>
    have boolean : type.id = .boolean := typed
    rw [boolean] at numeric
    cases numeric
  | string _ =>
    have string : type.id = .string := typed
    rw [string] at numeric
    cases numeric
  | int64 _ => exact .inr (.inr decimal)
  | double _ => exact .inr decimal

/-! ## Kinds -/

theorem sameKind_iff {first second : DataType} :
    sameKind first second = true ↔
      first.id = second.id ∧ first.precision = second.precision ∧ first.scale = second.scale := by
  simp [sameKind, and_assoc]

@[simp] theorem sameKind_refl (type : DataType) : sameKind type type = true :=
  sameKind_iff.mpr ⟨rfl, rfl, rfl⟩

theorem sameKind_symm {first second : DataType} (same : sameKind first second = true) :
    sameKind second first = true := by
  obtain ⟨id, precision, scale⟩ := sameKind_iff.mp same
  exact sameKind_iff.mpr ⟨id.symm, precision.symm, scale.symm⟩

theorem sameKind_trans {first second third : DataType} (same : sameKind first second = true)
    (same' : sameKind second third = true) : sameKind first third = true := by
  obtain ⟨id, precision, scale⟩ := sameKind_iff.mp same
  obtain ⟨id', precision', scale'⟩ := sameKind_iff.mp same'
  exact sameKind_iff.mpr ⟨id.trans id', precision.trans precision', scale.trans scale'⟩

/-- One type can stand for another: the two are numeric, or they differ in precision only. -/
def Convertible (current target : DataType) : Prop :=
  (isNumeric current.id = true ∧ isNumeric target.id = true) ∨ current.id = target.id

theorem convertible_trans {first second third : DataType} (toSecond : Convertible first second)
    (toThird : Convertible second third) : Convertible first third := by
  rcases toSecond with ⟨firstNumeric, secondNumeric⟩ | same
  · rcases toThird with ⟨_, thirdNumeric⟩ | same
    · exact .inl ⟨firstNumeric, thirdNumeric⟩
    · exact .inl ⟨firstNumeric, same ▸ secondNumeric⟩
  · rcases toThird with ⟨secondNumeric, thirdNumeric⟩ | same'
    · exact .inl ⟨same ▸ secondNumeric, thirdNumeric⟩
    · exact .inr (same.trans same')

/-- Two numeric types meet in a numeric type. -/
theorem promoteNumeric_typed {a b common : DataType} (ran : promoteNumeric a b = .ok common) :
    isNumeric common.id = true ∧ Scaled common := by
  unfold promoteNumeric at ran
  simp only at ran
  split at ran
  · rename_i someDecimal
    have decimal (type : DataType) (isDecimal : type.id = .decimal) :
        isNumeric type.id = true ∧ (type.id ≠ .decimal → type.scale = none) :=
      ⟨by rw [isDecimal]; rfl, fun other => absurd isDecimal other⟩
    split at ran
    · rename_i both
      split at ran
      · rw [← Except.ok.inj ran]
        exact decimal ⟨a.id, _, a.precision, a.scale⟩ both.1
      · cases ran
    · rw [← Except.ok.inj ran]
      by_cases first : a.id = .decimal
      · simp only [first, if_true]
        exact decimal ⟨.decimal, _, a.precision, a.scale⟩ rfl
      · simp only [first, if_false]
        exact decimal ⟨b.id, _, b.precision, b.scale⟩ (someDecimal.resolve_left first)
  · repeat' split at ran
    all_goals first
      | cases ran; done
      | rw [← Except.ok.inj ran]; exact ⟨rfl, fun _ => rfl⟩

/-- The type in which `SUM` adds numbers other than decimals. -/
theorem widened_typed (id : TypeId) :
    isNumeric (if isFloating id then float64Type true
      else if id = .uint64 then uint64Type true else int64Type true).id = true ∧
    Scaled (if isFloating id then float64Type true
      else if id = .uint64 then uint64Type true else int64Type true) := by
  split
  · exact ⟨rfl, fun _ => rfl⟩
  · split <;> exact ⟨rfl, fun _ => rfl⟩

theorem castIfNeeded_sameKind {expression result : Expression} {target : DataType}
    (ran : castIfNeeded expression target = .ok result) : sameKind result.resultType target = true := by
  unfold castIfNeeded at ran
  simp only at ran
  split at ran
  · rename_i same
    rwa [← Except.ok.inj ran]
  · split at ran
    · split at ran
      · split at ran
        · cases ran
        · rw [← Except.ok.inj ran]
          exact sameKind_refl target
      · cases ran
    · rw [← Except.ok.inj ran]
      exact sameKind_refl target

/-- Two operands cast to one type have types of one kind. -/
theorem castBoth_sameKind {left right left' right' : Expression} {target : DataType}
    (leftRan : castIfNeeded left target = .ok left') (rightRan : castIfNeeded right target = .ok right') :
    sameKind left'.resultType right'.resultType = true :=
  sameKind_trans (castIfNeeded_sameKind leftRan) (sameKind_symm (castIfNeeded_sameKind rightRan))

/-- A comparison, a conjunction or a disjunction is boolean. -/
theorem combineBinary_boolean {op : BinaryOperator} {left right result : Expression}
    (ran : combineBinary op left right = .ok result) (other : isArithmetic op = false) :
    result.resultType.id = .boolean := by
  unfold combineBinary at ran
  simp only [other, Bool.false_eq_true, if_false] at ran
  split at ran
  · split at ran
    · cases ran
    · rw [← Except.ok.inj ran]
      rfl
  · split at ran
    · rw [← Except.ok.inj ran]
      rfl
    · split at ran
      · simp only [bind_eq_ok, pure_eq_ok] at ran
        obtain ⟨_, _, _, _, _, _, rfl⟩ := ran
        rfl
      · cases ran

theorem unifyBound_numeric {value bound result : Expression} {side : String}
    (ran : unifyBound value bound side = .ok result) (numeric : isNumeric value.resultType.id = true) :
    isNumeric result.resultType.id = true := by
  unfold unifyBound at ran
  simp only at ran
  split at ran
  · rename_i same
    rw [← Except.ok.inj ran, ← (sameKind_iff.mp same).1]
    exact numeric
  · split at ran
    · obtain ⟨common, promoted, castRan⟩ := bind_eq_ok.mp ran
      rw [(sameKind_iff.mp (castIfNeeded_sameKind castRan)).1]
      exact (promoteNumeric_typed promoted).1
    · cases ran

theorem unifyBound_sameKind {value bound result : Expression} {side : String}
    (ran : unifyBound value bound side = .ok result) (notNumeric : ¬ isNumeric value.resultType.id = true) :
    sameKind value.resultType result.resultType = true := by
  unfold unifyBound at ran
  simp only at ran
  split at ran
  · rename_i same
    rwa [← Except.ok.inj ran]
  · split at ran
    · rename_i numeric
      simp only [Bool.and_eq_true] at numeric
      exact absurd numeric.1 notNumeric
    · cases ran

/-! ## Branches -/

theorem unifyBranch_convertible {common branch next : DataType} (ran : unifyBranch common branch = .ok next) :
    Convertible common next ∧ Convertible branch next := by
  unfold unifyBranch at ran
  split at ran
  · rename_i same
    rw [← Except.ok.inj ran]
    exact ⟨.inr rfl, .inr same⟩
  · split at ran
    · rename_i numeric
      simp only [Bool.and_eq_true] at numeric
      have promoted := (promoteNumeric_typed ran).1
      exact ⟨.inl ⟨numeric.1, promoted⟩, .inl ⟨numeric.2, promoted⟩⟩
    · cases ran

/-- Every branch of a `CASE` converts to the type of the whole. -/
theorem foldlM_unifyBranch_convertible {types : List DataType} {first common : DataType}
    (ran : types.foldlM unifyBranch first = .ok common) :
    ∀ type ∈ first :: types, Convertible type common := by
  induction types generalizing first with
  | nil =>
    rw [List.foldlM_nil, pure_eq_ok] at ran
    exact List.forall_mem_singleton.mpr (.inr (congrArg DataType.id ran))
  | cons branch types hypothesis =>
    rw [List.foldlM_cons] at ran
    obtain ⟨next, unified, restRan⟩ := bind_eq_ok.mp ran
    obtain ⟨fromFirst, fromBranch⟩ := unifyBranch_convertible unified
    obtain ⟨toCommon, others⟩ := List.forall_mem_cons.mp (hypothesis restRan)
    exact List.forall_mem_cons.mpr ⟨convertible_trans fromFirst toCommon,
      List.forall_mem_cons.mpr ⟨convertible_trans fromBranch toCommon, others⟩⟩

theorem castBranches_sameKind {common : DataType} {branches : List (Expression × Expression)}
    {otherwise : Option Expression} {result : CaseBranches}
    (ran : castBranches common branches otherwise = .ok result) :
    ∀ type ∈ resultTypes result, sameKind type common = true := by
  induction branches generalizing result with
  | nil =>
    cases otherwise with
    | none =>
      rw [← pure_eq_ok.mp ran]
      exact List.forall_mem_nil _
    | some expression =>
      simp only [castBranches, bind_eq_ok, pure_eq_ok] at ran
      obtain ⟨cast, castRan, rfl⟩ := ran
      exact List.forall_mem_singleton.mpr (castIfNeeded_sameKind castRan)
  | cons branch branches hypothesis =>
    simp only [castBranches, bind_eq_ok, pure_eq_ok] at ran
    obtain ⟨cast, castRan, rest, restRan, rfl⟩ := ran
    exact List.forall_mem_cons.mpr ⟨castIfNeeded_sameKind castRan, hypothesis restRan⟩

end KernelLake.BoundTypes
