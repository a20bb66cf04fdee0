import KernelLake.ExpressionCompilerProofs
import KernelLake.Library.DoubleProducts

/-!
Comparisons of a decimal column with a numeric literal.

The binder gives the literal the type of the column, after a check of its magnitude in doubles. The compiler
then turns the literal into the number of units of the column's scale, in the width that the precision is
stored in, and the rows compare units. What a comparison should say is a matter of the numbers themselves.
-/

namespace KernelLake.DecimalComparisons

open KernelLake.Types KernelLake.Expressions KernelLake.SqlAst KernelLake.Evaluation KernelLake.Binder
open KernelLake.ExpressionCompilers KernelLake.ExpressionCompilerProofs KernelLake.Library.Doubles
open KernelLake.Library.DoubleValues

/-! ## The numbers compared -/

/-- The number that a numeric literal stands for. -/
def literalNumber : AstLiteral → Option ℚ
  | .integer value => some value.toInt
  | .float value => exactValue value
  | _ => none

/-- The number that a count of units stands for. -/
def decimalNumber (scale units : Int) : ℚ :=
  units / tenTo scale

/-- The truth value of a comparison of a decimal with a number, missing where the decimal is. -/
def exactTruth (op : BinaryOperator) (flipped : Bool) (scale : Int) (number : ℚ) (units : Option Int) : Datum :=
  ⟨.boolean, units.map (fun units =>
    accepts op (if flipped then compare number (decimalNumber scale units)
      else compare (decimalNumber scale units) number))⟩

/-- A comparison of a column with a literal, or of the literal with the column. -/
def comparisonWith (op : BinaryOperator) (flipped : Bool) (column literal : Expression) : Except String Expression :=
  if flipped then combineBinary op literal column else combineBinary op column literal

/-- Decimals of one scale are compared by their units. -/
def ComparesUnits (cudf : Gpu.Cudf) : Prop :=
  ∀ op meaning, Gpu.AstOperator.meaning op = some meaning → isComparison meaning = true → ∀ left right : Option Int,
    cudf.binary op ⟨.decimal, left⟩ ⟨.decimal, right⟩ =
      .ok ⟨.boolean, left.bind (fun left => right.map (fun right => accepts meaning (compare left right)))⟩

/-- Every comparison with the literal that is bound says of every value of the column what the numbers say. -/
def ComparesExactly (cudf : Gpu.Cudf) (precision scale : Int) (literal : AstLiteral) (number : ℚ) : Prop :=
  ∀ (name : String) (index : Nat) (nullable flipped : Bool) (op : BinaryOperator) (bound : Expression),
    isComparison op = true →
    comparisonWith op flipped (.column name index (decimalType precision scale nullable)) (bindLiteral literal) =
      .ok bound →
    ∀ (leftFieldCount : Option Nat) (row : List Datum) (units : Option Int),
      row[index]? = some ⟨.decimal, units⟩ →
      (∀ present, units = some present → |present| < tenTo precision) →
      ∃ tree, Gpu.compile leftFieldCount bound = .ok tree ∧
        Gpu.evaluate cudf (Gpu.tablesOf leftFieldCount row) tree = .ok (exactTruth op flipped scale number units)

/-- The precision and the scale of a decimal type. -/
structure ValidDecimal (precision scale : Int) : Prop where
  digits : 1 ≤ precision
  most : precision ≤ 38
  places : 0 ≤ scale
  within : scale ≤ precision

/-! ## What is compared -/

/-- A literal with its storage in the type of the column. -/
def storageOf : AstLiteral → LiteralStorage
  | .integer value => .int64 value
  | .float value => .double value
  | _ => .monostate

/-- The units that `decimal_raw_value` compares a literal as. -/
def literalUnits (scale : Int) : AstLiteral → Int
  | .integer value => value.toInt * tenTo scale
  | .float value => (roundToScale scale value).getD 0
  | _ => 0

/-- The units in the width that a precision is stored in. -/
def storedUnits (precision units : Int) : Int :=
  if precision ≤ 9 then units.bmod (2 ^ 32) else if precision ≤ 18 then units.bmod (2 ^ 64)
  else units.bmod (2 ^ 128)

/-! ## Binding -/

def exceedsMessage (precision scale : Int) : String :=
  "numeric literal does not fit in DECIMAL(" ++ toString precision ++ ", " ++ toString scale ++ ")"

/-- A comparison of two numeric types takes its operands to the type in which they meet. -/
theorem combineBinary_comparison {op : BinaryOperator} {left right : Expression} (comparison : isComparison op = true)
    (different : sameKind left.resultType right.resultType = false)
    (leftNumeric : isNumeric left.resultType.id = true) (rightNumeric : isNumeric right.resultType.id = true) :
    combineBinary op left right = (do
      let common ← promoteNumeric left.resultType right.resultType
      let newLeft ← castIfNeeded left common
      let newRight ← castIfNeeded right common
      return .binary op newLeft newRight (booleanType (left.resultType.nullable || right.resultType.nullable))) := by
  have notArithmetic : isArithmetic op = false := by cases op <;> first | rfl | cases comparison
  have notLogical : isLogical op = false := by cases op <;> first | rfl | cases comparison
  unfold combineBinary
  simp only [notArithmetic, notLogical, different, leftNumeric, rightNumeric, Bool.false_eq_true, if_false,
    Bool.and_self, if_true]

section Binding

variable {precision scale : Int} {nullable flipped : Bool} {op : BinaryOperator} {name : String} {index : Nat}

section Literals

variable {type : DataType} (notDecimal : type.id ≠ .decimal)
include notDecimal

/-- A decimal meets a number of another type in its own type. -/
theorem promoteNumeric_decimal (present : type.nullable = false) :
    promoteNumeric (decimalType precision scale nullable) type = .ok (decimalType precision scale nullable) ∧
      promoteNumeric type (decimalType precision scale nullable) = .ok (decimalType precision scale nullable) := by
  constructor <;> simp [promoteNumeric, decimalType, notDecimal, present]

theorem castIfNeeded_literal {value : LiteralStorage} (notNull : value ≠ .monostate) :
    castIfNeeded (.literal value type) (decimalType precision scale nullable) =
      if exceedsDecimal value (decimalType precision scale) = true then .error (exceedsMessage precision scale)
      else .ok (.literal value (decimalType precision scale nullable)) := by
  have different : sameKind type (decimalType precision scale nullable) = false := by
    simp [sameKind, decimalType, notDecimal]
  have exceeds : exceedsDecimal value (decimalType precision scale nullable) =
      exceedsDecimal value (decimalType precision scale) := rfl
  unfold castIfNeeded
  simp only [Expression.resultType, different, Bool.false_eq_true, if_false, exceeds]
  rw [if_pos ⟨rfl, notDecimal⟩]
  simp only [notNull, ne_eq, not_false_eq_true, true_and]
  rfl

theorem combineBinary_literal {value : LiteralStorage} (numeric : isNumeric type.id = true)
    (present : type.nullable = false) (notNull : value ≠ .monostate) (comparison : isComparison op = true) :
    comparisonWith op flipped (.column name index (decimalType precision scale nullable)) (.literal value type) =
      if exceedsDecimal value (decimalType precision scale) = true then .error (exceedsMessage precision scale)
      else
        let column : Expression := .column name index (decimalType precision scale nullable)
        let constant : Expression := .literal value (decimalType precision scale nullable)
        .ok (if flipped then .binary op constant column (booleanType nullable)
          else .binary op column constant (booleanType nullable)) := by
  have different : sameKind type (decimalType precision scale nullable) = false ∧
      sameKind (decimalType precision scale nullable) type = false := by
    simp [sameKind, decimalType, notDecimal, Ne.symm notDecimal]
  have column : castIfNeeded (.column name index (decimalType precision scale nullable))
      (decimalType precision scale nullable) = .ok (.column name index (decimalType precision scale nullable)) :=
    if_pos (by simp [Expression.resultType, sameKind])
  have promoted : promoteNumeric (decimalType precision scale nullable) type =
        .ok (decimalType precision scale nullable) ∧
      promoteNumeric type (decimalType precision scale nullable) = .ok (decimalType precision scale nullable) :=
    promoteNumeric_decimal notDecimal present
  have constant : castIfNeeded (.literal value type) (decimalType precision scale nullable) =
      if exceedsDecimal value (decimalType precision scale) = true then .error (exceedsMessage precision scale)
      else .ok (.literal value (decimalType precision scale nullable)) :=
    castIfNeeded_literal notDecimal notNull
  cases flipped with
  | true =>
    rw [comparisonWith, if_pos rfl, @combineBinary_comparison op (.literal value type)
      (.column name index (decimalType precision scale nullable)) comparison different.1 numeric rfl]
    simp only [Expression.resultType, promoted.2, present, Bool.false_or, if_true]
    change (castIfNeeded (.literal value type) _ >>= fun _ => castIfNeeded (.column name index _) _ >>= _) = _
    rw [constant]
    split
    · rfl
    · change (castIfNeeded (.column name index _) _ >>= _) = _
      rw [column]
      rfl
  | false =>
    rw [comparisonWith, if_neg Bool.false_ne_true, @combineBinary_comparison op
      (.column name index (decimalType precision scale nullable)) (.literal value type) comparison different.2 rfl
      numeric]
    simp only [Expression.resultType, promoted.1, present, Bool.or_false, Bool.false_eq_true, if_false]
    change (castIfNeeded (.column name index _) _ >>= _) = _
    rw [column]
    change (castIfNeeded (.literal value type) _ >>= _) = _
    rw [constant]
    split <;> rfl

end Literals

/-- The bound comparison has the literal in the column's type, or the literal is too large for it. -/
theorem comparisonWith_eq {literal : AstLiteral} {number : ℚ} (isNumber : literalNumber literal = some number)
    (comparison : isComparison op = true) :
    comparisonWith op flipped (.column name index (decimalType precision scale nullable)) (bindLiteral literal) =
      if exceedsDecimal (storageOf literal) (decimalType precision scale) = true then
        .error (exceedsMessage precision scale)
      else
        let column : Expression := .column name index (decimalType precision scale nullable)
        let constant : Expression := .literal (storageOf literal) (decimalType precision scale nullable)
        .ok (if flipped then .binary op constant column (booleanType nullable)
          else .binary op column constant (booleanType nullable)) := by
  cases literal with
  | integer value => exact combineBinary_literal (by simp [int64Type]) rfl rfl (by simp) comparison
  | float value => exact combineBinary_literal (by simp [float64Type]) rfl rfl (by simp) comparison
  | string => cases isNumber
  | boolean => cases isNumber
  | date => cases isNumber
  | null => cases isNumber

end Binding

/-! ## Evaluation -/

theorem makeLiteral_units {literal : AstLiteral} {number : ℚ} {precision scale : Int} {nullable : Bool}
    (isNumber : literalNumber literal = some number) :
    Gpu.makeLiteral (decimalType precision scale nullable) (storageOf literal)
        (decide (storageOf literal ≠ .monostate)) =
      .ok (.literal ⟨.decimal, some (storedUnits precision (literalUnits scale literal))⟩) := by
  cases literal with
  | integer value => rfl
  | float value => rfl
  | string => cases isNumber
  | boolean => cases isNumber
  | date => cases isNumber
  | null => cases isNumber

/-- Two decimals are compared as the library compares them. -/
theorem evaluateBinary_decimal {cudf : Gpu.Cudf} {op : BinaryOperator} (left right : Option Int) :
    Gpu.evaluateBinary cudf (Gpu.toAstOperator op) ⟨.decimal, left⟩ ⟨.decimal, right⟩ =
      cudf.binary (Gpu.toAstOperator op) ⟨.decimal, left⟩ ⟨.decimal, right⟩ := by
  cases op <;> rfl

theorem meaning_toAstOperator (op : BinaryOperator) : (Gpu.toAstOperator op).meaning = some op := by
  cases op <;> rfl

section Evaluation

variable {cudf : Gpu.Cudf} {literal : AstLiteral} {number : ℚ} {precision scale : Int} {nullable flipped : Bool}
variable {op : BinaryOperator} {name : String} {index : Nat} {leftFieldCount : Option Nat} {row : List Datum}
variable {units : Option Int}

/-- The bound comparison has a tree, which compares the units of the column with those of the literal. -/
theorem evaluate_bound (compares : ComparesUnits cudf) (isNumber : literalNumber literal = some number)
    (comparison : isComparison op = true) (cell : row[index]? = some ⟨.decimal, units⟩) :
    ∃ tree, Gpu.compile leftFieldCount
        (if flipped then .binary op (.literal (storageOf literal) (decimalType precision scale nullable))
            (.column name index (decimalType precision scale nullable)) (booleanType nullable)
          else .binary op (.column name index (decimalType precision scale nullable))
            (.literal (storageOf literal) (decimalType precision scale nullable)) (booleanType nullable)) = .ok tree ∧
      Gpu.evaluate cudf (Gpu.tablesOf leftFieldCount row) tree =
        .ok ⟨.boolean, units.map (fun units =>
          accepts op (if flipped then compare (storedUnits precision (literalUnits scale literal)) units
            else compare units (storedUnits precision (literalUnits scale literal))))⟩ := by
  have column := evaluate_compileColumn cudf leftFieldCount row index
  rw [cell] at column
  have constant : Gpu.makeLiteral (decimalType precision scale nullable) (storageOf literal)
      (decide (storageOf literal ≠ .monostate)) =
        .ok (.literal ⟨.decimal, some (storedUnits precision (literalUnits scale literal))⟩) :=
    makeLiteral_units isNumber
  cases flipped with
  | true =>
    refine ⟨.binary (Gpu.toAstOperator op)
      (.literal ⟨.decimal, some (storedUnits precision (literalUnits scale literal))⟩)
      (Gpu.compileColumn leftFieldCount index), ?_, ?_⟩
    · simp only [if_true, Gpu.compile, constant]
      rfl
    · rw [Gpu.evaluate, Gpu.evaluate, column]
      refine ((evaluateBinary_decimal _ _).trans
        (compares _ op (meaning_toAstOperator op) comparison _ _)).trans ?_
      rfl
  | false =>
    refine ⟨.binary (Gpu.toAstOperator op) (Gpu.compileColumn leftFieldCount index)
      (.literal ⟨.decimal, some (storedUnits precision (literalUnits scale literal))⟩), ?_, ?_⟩
    · simp only [Bool.false_eq_true, if_false, Gpu.compile, constant]
      rfl
    · rw [Gpu.evaluate, Gpu.evaluate, column]
      refine ((evaluateBinary_decimal _ _).trans
        (compares _ op (meaning_toAstOperator op) comparison _ _)).trans ?_
      cases units <;> rfl

end Evaluation

/-! ## Orders -/

/-- The comparison operators tell any two orderings apart. -/
theorem eq_of_accepts {first second : Ordering}
    (same : ∀ op, isComparison op = true → accepts op first = accepts op second) : first = second := by
  have equal := same .equal rfl
  have less := same .less rfl
  cases first <;> cases second <;> simp [accepts] at equal less ⊢

theorem compare_decimalNumber (scale units : Int) (number : ℚ) :
    compare (decimalNumber scale units) number = compare (units : ℚ) (number * tenTo scale) := by
  have positive : (0 : ℚ) < tenTo scale := by exact_mod_cast tenTo_pos scale
  unfold decimalNumber
  rcases lt_trichotomy (units / tenTo scale : ℚ) number with below | same | above
  · rw [compare_lt_iff_lt.mpr below, compare_lt_iff_lt.mpr ((div_lt_iff₀ positive).mp below)]
  · rw [compare_eq_iff_eq.mpr same, compare_eq_iff_eq.mpr ((div_eq_iff positive.ne').mp same)]
  · rw [compare_gt_iff_gt.mpr above, compare_gt_iff_gt.mpr ((lt_div_iff₀ positive).mp above)]

end KernelLake.DecimalComparisons
