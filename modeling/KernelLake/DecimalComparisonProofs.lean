import KernelLake.DecimalComparisons
import KernelLake.Library.DoubleBounds

/-!
When a comparison of a decimal column with a literal is exact.

A literal that the binder accepts is compared as a whole number of units. That is the number it stands for exactly
if it is an integer, or a double that is a whole number of units itself and keeps all of its digits on the way.
-/

namespace KernelLake.DecimalComparisons

open KernelLake.Types KernelLake.Expressions KernelLake.SqlAst KernelLake.Evaluation KernelLake.Binder
open KernelLake.ExpressionCompilers KernelLake.ExpressionCompilerProofs KernelLake.Library.Doubles
open KernelLake.Library.DoubleValues KernelLake.Library.DoubleRounding KernelLake.Library.DoubleProducts
open KernelLake.Library.DoubleBounds

/-! ## Orders of units -/

section Orders

variable {cudf : Gpu.Cudf} {literal : AstLiteral} {number : ℚ} {precision scale : Int}

/-- The comparisons of an accepted literal are exact if its units stand among those of the column where its number
stands. -/
theorem comparesExactly_of_orders (compares : ComparesUnits cudf) (isNumber : literalNumber literal = some number)
    (orders : ∀ units : Int, |units| < tenTo precision →
      compare units (storedUnits precision (literalUnits scale literal)) =
        compare (units : ℚ) (number * tenTo scale)) :
    ComparesExactly cudf precision scale literal number := by
  intro name index nullable flipped op bound comparison isBound leftFieldCount row units cell present
  rw [comparisonWith_eq isNumber comparison] at isBound
  split at isBound
  · cases isBound
  obtain rfl := Except.ok.inj isBound
  obtain ⟨tree, compiled, evaluated⟩ := @evaluate_bound cudf literal number precision scale nullable flipped op name
    index leftFieldCount row units compares isNumber comparison cell
  refine ⟨tree, compiled, evaluated.trans ?_⟩
  rw [exactTruth]
  congr 2
  refine Option.map_congr fun value isValue => ?_
  have order := orders value (present value isValue)
  rw [← compare_decimalNumber] at order
  rw [← compare_swap value, order, compare_swap]

theorem orders_of_comparesExactly (compares : ComparesUnits cudf) (isNumber : literalNumber literal = some number)
    (accepted : exceedsDecimal (storageOf literal) (decimalType precision scale) = false)
    (exact : ComparesExactly cudf precision scale literal number) (units : Int) (small : |units| < tenTo precision) :
    compare units (storedUnits precision (literalUnits scale literal)) =
      compare (units : ℚ) (number * tenTo scale) := by
  rw [← compare_decimalNumber]
  refine eq_of_accepts fun op comparison => ?_
  have cell : [(⟨.decimal, some units⟩ : Datum)][0]? = some ⟨.decimal, some units⟩ := rfl
  have isBound := @comparisonWith_eq precision scale false false op "" 0 literal number isNumber comparison
  rw [accepted] at isBound
  obtain ⟨tree, compiled, evaluated⟩ := exact "" 0 false false op _ comparison isBound none _ _ cell
    (fun present isPresent => Option.some.inj isPresent ▸ small)
  obtain ⟨tree', compiled', evaluated'⟩ := @evaluate_bound cudf literal number precision scale false false op ""
    0 none _ _ compares isNumber comparison cell
  obtain rfl := Except.ok.inj (compiled.symm.trans compiled')
  have same := Except.ok.inj (evaluated'.symm.trans evaluated)
  simp only [exactTruth, Datum.mk.injEq, heq_eq_eq, true_and, Bool.false_eq_true, if_false] at same
  exact Option.some.inj same

end Orders

/-! ## Magnitudes -/

/-- The largest number of units that the check of the binder lets pass, before it is rounded. -/
def limit (precision : Int) : Int :=
  if precision ≤ 15 then tenTo precision - 1 else tenTo precision

theorem exactValue_limit {precision : Int} (digits : 1 ≤ precision) (most : precision ≤ 38) :
    exactValue (ofInteger (tenTo precision) - ofInteger 1) = exactValue (ofInteger (limit precision)) := by
  have table : ∀ places : Fin 39,
      exactValue (ofInteger (tenTo (places : Nat)) - ofInteger 1) = exactValue (ofInteger (limit (places : Nat))) := by
    decide +kernel
  have same := table ⟨precision.toNat, by omega⟩
  rwa [Int.toNat_of_nonneg (by omega)] at same

theorem tenTo_le {exponent : Int} {digits : Nat} (few : exponent ≤ digits) : tenTo exponent ≤ 10 ^ digits :=
  Nat.pow_le_pow_right (by decide) (by omega)

theorem log2_tenTo {exponent : Int} (most : exponent ≤ 38) : (tenTo exponent).log2 < 127 := by
  apply (Nat.log2_lt (tenTo_pos exponent).ne').mpr
  calc tenTo exponent ≤ 10 ^ 38 := tenTo_le most
    _ < 2 ^ 127 := by norm_num

theorem tenTo_eq (exponent : Int) : tenTo exponent = 5 ^ exponent.toNat * 2 ^ exponent.toNat := by
  rw [tenTo, ← Nat.mul_pow]

theorem five_pow_lt {exponent : Int} (few : exponent ≤ 22) : 5 ^ exponent.toNat < 2 ^ 52 := by
  calc 5 ^ exponent.toNat ≤ 5 ^ 22 := Nat.pow_le_pow_right (by decide) (by omega)
    _ < 2 ^ 52 := by norm_num

/-- Up to `10 ^ 22`, a power of ten is a double. -/
theorem nearest_tenTo {exponent : Int} (few : exponent ≤ 22) : nearest (tenTo exponent) = tenTo exponent := by
  rw [tenTo_eq]
  exact nearest_exact ((five_pow_lt few).trans (by decide))

theorem nearest_limit {precision : Int} (digits : 1 ≤ precision) (few : precision ≤ 18) :
    nearest (limit precision).natAbs = limit precision := by
  unfold limit
  split
  · rename_i narrow
    have most : tenTo precision ≤ 10 ^ 15 := tenTo_le narrow
    have positive := tenTo_pos precision
    have magnitude : ((tenTo precision : ℤ) - 1).natAbs = tenTo precision - 1 := by omega
    have small : (tenTo precision - 1).log2 ≤ 52 := by
      rcases Nat.eq_zero_or_pos (tenTo precision - 1) with zero | above
      · rw [zero]
        decide
      · have := (Nat.log2_lt above.ne').mpr (show tenTo precision - 1 < 2 ^ 53 by omega)
        omega
    rw [magnitude, nearest_narrow small, Nat.cast_pred positive]
    push_cast
    rfl
  · rw [Int.natAbs_natCast, nearest_tenTo (by omega)]
    rfl

/-- What the binder compares the magnitude of a literal with. -/
theorem exists_top {precision : Int} (digits : 1 ≤ precision) (most : precision ≤ 38) :
    ∃ top, exactValue (ofInteger (tenTo precision) - ofInteger 1) = some top ∧
      (precision ≤ 18 → top = limit precision) ∧ top ≤ tenTo precision * (1 + 1 / 2 ^ 53) := by
  have ten : 10 ≤ tenTo precision := by
    calc 10 = 10 ^ 1 := rfl
      _ ≤ tenTo precision := Nat.pow_le_pow_right (by decide) (by omega)
  have bounds : 0 < limit precision ∧ limit precision ≤ tenTo precision := by
    unfold limit
    split <;> omega
  have atMost : (limit precision).natAbs ≤ tenTo precision := by omega
  have positive : 0 < (limit precision).natAbs := by omega
  have small : (limit precision).natAbs.log2 < 127 := by
    apply (Nat.log2_lt positive.ne').mpr
    exact atMost.trans_lt ((Nat.log2_lt (tenTo_pos precision).ne').mp (log2_tenTo most))
  have sign : signOf (limit precision) = .positive := if_neg (by omega)
  have value := exactValue_ofInteger bounds.1.ne' (by omega)
  rw [sign] at value
  simp only [Float.Model.UnpackedFloat.Sign.apply, Int.cast_one, one_mul] at value
  refine ⟨_, (exactValue_limit digits most).trans value, fun few => nearest_limit digits few, ?_⟩
  have short := nearest_le positive
  have wide : ((limit precision).natAbs : ℚ) ≤ tenTo precision := by exact_mod_cast atMost
  exact short.trans (mul_le_mul_of_nonneg_right wide (by positivity))

/-- A literal is taken as its magnitude before it is compared. -/
theorem exactValue_absDouble_mul {value factor : Float} {number : ℚ} {mantissa : Nat} {exponent : ℤ}
    {positive : 0 < mantissa} (isNumber : exactValue value = some number)
    (factorParts : factor.toModel.unpack = .finite .positive mantissa exponent positive) :
    exactValue (absDouble value * factor) = (exactValue (value * factor)).map (fun result => |result|) := by
  have sign := compareDoubles_exact isNumber exactValue_zero
  unfold absDouble
  rw [sign]
  split
  · rename_i below
    have negative : number < 0 := compare_lt_iff_lt.mp (Option.some.inj below)
    have negated : exactValue (-value) = some (-number) := by
      rw [exactValue_neg, isNumber]
      rfl
    have product := exactValue_neg_mul value factor
    cases result : exactValue (value * factor) with
    | none =>
      rw [result] at product
      exact product
    | some result' =>
      rw [result] at product
      have nonneg := mul_nonneg_value negated factorParts product (by linarith)
      rw [product, Option.map_some, Option.map_some, abs_of_nonpos (by linarith)]
  · rename_i above
    have nonneg : 0 ≤ number := not_lt.mp fun negative => above (congrArg some (compare_lt_iff_lt.mpr negative))
    cases result : exactValue (value * factor) with
    | none => rfl
    | some result' =>
      have := mul_nonneg_value isNumber factorParts result nonneg
      rw [Option.map_some, abs_of_nonneg this]

/-- The double of a power of ten, by its parts. -/
theorem unpack_tenTo {exponent : Int} (most : exponent ≤ 38) :
    ∃ positive, (ofInteger (tenTo exponent)).toModel.unpack = .finite .positive
      (normalParts (tenTo exponent)).2 (normalParts (tenTo exponent)).1 positive := by
  have positive := tenTo_pos exponent
  have small := log2_tenTo most
  have sign : signOf (tenTo exponent : ℤ) = .positive := if_neg (by omega)
  obtain ⟨nonzero, parts⟩ := @unpack_ofInteger (tenTo exponent) (by omega) (by rw [Int.natAbs_natCast]; omega)
  rw [sign] at parts
  exact ⟨nonzero, parts⟩

section Accepted

variable {value : Float} {number : ℚ} {precision scale : Int} (valid : ValidDecimal precision scale)
  (isNumber : exactValue value = some number)
  (accepted : exceedsDecimal (.double value) (decimalType precision scale) = false)
include valid isNumber accepted

/-- The product of an accepted literal with the power of ten does not exceed the limit. -/
theorem product_le_top {result : ℚ} (isResult : exactValue (value * ofInteger (tenTo scale)) = some result) :
    (precision ≤ 18 → |result| ≤ limit precision) ∧ |result| ≤ tenTo precision * (1 + 1 / 2 ^ 53) := by
  obtain ⟨top, isTop, exact, most⟩ := exists_top valid.digits valid.most
  obtain ⟨_, factorParts⟩ := unpack_tenTo (valid.within.trans valid.most)
  have magnitude := exactValue_absDouble_mul isNumber factorParts
  rw [isResult, Option.map_some] at magnitude
  have order := compareDoubles_exact magnitude isTop
  have below : |result| ≤ top := by
    by_contra above
    rw [compare_gt_iff_gt.mpr (not_le.mp above)] at order
    have exceeds : exceedsDecimal (.double value) (decimalType precision scale) = true := by
      unfold exceedsDecimal
      exact decide_eq_true order
    rw [accepted] at exceeds
    cases exceeds
  exact ⟨fun few => exact few ▸ below, below.trans most⟩

/-- An accepted literal is rounded to at most the limit. -/
theorem rounded_le {raw : Int} (ran : roundHalfAway (value * ofInteger (tenTo scale)) = some raw)
    (few : precision ≤ 18) : |raw| ≤ limit precision := by
  obtain ⟨result, isResult⟩ := exactValue_of_roundHalfAway ran
  obtain ⟨rounded, ran', near⟩ := roundHalfAway_near isResult
  obtain rfl := Option.some.inj (ran.symm.trans ran')
  have below := (product_le_top valid isNumber accepted isResult).1 few
  have distance : |(raw : ℚ)| ≤ |result| + 1 / 2 := by
    have triangle := abs_sub_abs_le_abs_sub (raw : ℚ) result
    linarith
  have half : 2 * |raw| ≤ 2 * limit precision + 1 := by
    have doubled : 2 * |(raw : ℚ)| ≤ 2 * limit precision + 1 := by linarith
    exact_mod_cast doubled
  omega

end Accepted

/-- Units that fit the width of a precision are stored as they are. -/
theorem storedUnits_eq {precision units : Int} (narrow : precision ≤ 9 → |units| < 2 ^ 31)
    (middle : precision ≤ 18 → |units| < 2 ^ 63) (wide : |units| < 2 ^ 127) :
    storedUnits precision units = units := by
  have bounds := abs_lt.mp wide
  unfold storedUnits
  split
  · rename_i small
    have := abs_lt.mp (narrow small)
    exact Int.bmod_eq_of_le (by omega) (by omega)
  · split
    · rename_i small
      have := abs_lt.mp (middle small)
      exact Int.bmod_eq_of_le (by omega) (by omega)
    · exact Int.bmod_eq_of_le (by omega) (by omega)

theorem inInt64_bounds {units : Int} (inRange : inInt64 units = true) : -2 ^ 63 ≤ units ∧ units < 2 ^ 63 := by
  obtain ⟨low, high⟩ := Bool.and_eq_true_iff.mp inRange
  have low : int64Min ≤ units := of_decide_eq_true low
  have high : units ≤ int64Max := of_decide_eq_true high
  unfold int64Min at low
  unfold int64Max at high
  omega

theorem limit_lt {precision : Int} :
    (precision ≤ 9 → limit precision < 2 ^ 31) ∧ (precision ≤ 18 → limit precision < 2 ^ 63) ∧
      (precision ≤ 15 → limit precision < tenTo precision) ∧ limit precision ≤ tenTo precision := by
  have least : limit precision ≤ tenTo precision := by
    unfold limit
    split <;> omega
  refine ⟨fun small => ?_, fun small => ?_, fun small => ?_, least⟩
  · have most : tenTo precision ≤ 10 ^ 9 := tenTo_le small
    omega
  · have most : tenTo precision ≤ 10 ^ 18 := tenTo_le small
    omega
  · rw [limit, if_pos small]
    omega

section Accepted

variable {value : Float} {number : ℚ} {precision scale raw : Int} (valid : ValidDecimal precision scale)
  (isNumber : exactValue value = some number)
  (accepted : exceedsDecimal (.double value) (decimalType precision scale) = false)
  (ran : roundToScale scale value = some raw)
include valid isNumber accepted ran

theorem storedUnits_rounded : storedUnits precision raw = raw := by
  obtain ⟨rounded, inRange⟩ := Option.filter_eq_some_iff.mp ran
  have bounds := inInt64_bounds inRange
  refine storedUnits_eq (fun small => ?_) (fun small => ?_) ?_
  · exact (rounded_le valid isNumber accepted rounded (by omega)).trans_lt (limit_lt.1 small)
  · exact (rounded_le valid isNumber accepted rounded small).trans_lt (limit_lt.2.1 small)
  · rw [abs_lt]
    omega

/-- An accepted literal that is rounded out of the column's range is rounded to the end of the range. -/
theorem rounded_beyond (beyond : (tenTo precision : ℤ) ≤ |raw|) :
    |raw| = tenTo precision ∧ 16 ≤ precision ∧ precision ≤ 18 := by
  obtain ⟨rounded, inRange⟩ := Option.filter_eq_some_iff.mp ran
  have few : precision ≤ 18 := by
    by_contra many
    have bounds := inInt64_bounds inRange
    have least : 10 ^ 19 ≤ tenTo precision := Nat.pow_le_pow_right (by decide) (by omega)
    have magnitude : |raw| ≤ 2 ^ 63 := abs_le.mpr (by omega)
    omega
  have atMost := rounded_le valid isNumber accepted rounded few
  obtain ⟨-, -, narrow, least⟩ := @limit_lt precision
  have many : 16 ≤ precision := by
    by_contra small
    have := narrow (by omega)
    omega
  exact ⟨le_antisymm (atMost.trans least) beyond, many, few⟩

/-- The product with such a literal is the end of the range: no double is between. -/
theorem product_beyond (beyond : (tenTo precision : ℤ) ≤ |raw|) :
    ∃ result, exactValue (value * ofInteger (tenTo scale)) = some result ∧ |result| = tenTo precision := by
  obtain ⟨rounded, -⟩ := Option.filter_eq_some_iff.mp ran
  obtain ⟨atEnd, many, few⟩ := rounded_beyond valid isNumber accepted ran beyond
  obtain ⟨result, isResult⟩ := exactValue_of_roundHalfAway rounded
  obtain ⟨_, ran', near⟩ := roundHalfAway_near isResult
  obtain rfl := Option.some.inj (rounded.symm.trans ran')
  refine ⟨result, isResult, ?_⟩
  have close : |(|result| - (tenTo precision : ℚ))| ≤ 1 / 2 := by
    have atEnd' : |(raw : ℚ)| = tenTo precision := by exact_mod_cast atEnd
    rw [← atEnd', abs_sub_comm]
    exact (abs_abs_sub_abs_le (raw : ℚ) result).trans near
  have large : (10 : ℚ) ^ 16 ≤ tenTo precision := by
    exact_mod_cast Nat.pow_le_pow_right (show 0 < 10 by decide) (show 16 ≤ precision.toNat by omega)
  have exact := @abs_eq_of_near _ result _ precision.toNat isResult (five_pow_lt (few.trans (by decide)))
  rw [← tenTo_eq] at exact
  have part : (1 : ℚ) / 2 * 2 ^ 53 ≤ 10 ^ 16 - 1 / 2 := by norm_num
  refine exact ((mul_le_mul_of_nonneg_right close (by positivity)).trans (part.trans ?_))
  have below := (abs_le.mp close).1
  linarith

/-- An accepted literal that is rounded out of the column's range stands for the end of the range itself. -/
theorem wholeUnits_of_beyond (beyond : (tenTo precision : ℤ) ≤ |raw|) :
    |number * tenTo scale| = tenTo precision ∧ precision ≤ 18 := by
  obtain ⟨-, many, few⟩ := rounded_beyond valid isNumber accepted ran beyond
  obtain ⟨result, isResult, isEnd⟩ := product_beyond valid isNumber accepted ran beyond
  have places := valid.places
  have within := valid.within
  obtain ⟨_, factorParts⟩ := unpack_tenTo (within.trans valid.most)
  have atLeast : 1 ≤ |result| := by
    rw [isEnd]
    exact_mod_cast tenTo_pos precision
  have notHuge : |result| < 2 ^ 1000 := by
    rw [isEnd]
    calc (tenTo precision : ℚ) ≤ 10 ^ 18 := by exact_mod_cast tenTo_le few
      _ < 2 ^ 60 := by norm_num
      _ ≤ 2 ^ 1000 := pow_le_pow_right₀ (by norm_num) (by norm_num)
  have error := mul_near isNumber factorParts isResult (normalParts_bounds (tenTo_pos scale)).1 atLeast notHuge
  have factor : ((normalParts (tenTo scale)).2 : ℚ) * 2 ^ (normalParts (tenTo scale)).1 = tenTo scale :=
    nearest_tenTo (by omega)
  rw [factor] at error
  have split : (tenTo precision : ℚ) = tenTo (precision - scale) * tenTo scale := by
    have powers : precision.toNat = (precision - scale).toNat + scale.toNat := by omega
    rw [tenTo, tenTo, tenTo, powers, pow_add]
    push_cast
    rfl
  have power : (0 : ℚ) < tenTo scale := by exact_mod_cast tenTo_pos scale
  -- the error of the product is divided by the factor: the literal is as near to a power of ten
  have distance : |(|number| - (tenTo (precision - scale) : ℚ))| * 2 ^ 53 ≤ |number| := by
    have apart := (mul_le_mul_of_nonneg_right (abs_abs_sub_abs_le result (number * tenTo scale))
      (show (0 : ℚ) ≤ 2 ^ 53 by positivity)).trans error
    rw [isEnd, split, abs_mul, abs_of_pos power, ← sub_mul, abs_mul, abs_of_pos power, mul_right_comm] at apart
    rw [abs_sub_comm]
    exact le_of_mul_le_mul_right apart power
  have digits : 5 ^ (precision - scale).toNat < 2 ^ 52 := five_pow_lt (by omega)
  have exact := @abs_eq_of_near _ number _ (precision - scale).toNat isNumber digits
  rw [← tenTo_eq] at exact
  rw [abs_mul, exact distance, abs_of_pos power, ← split]
  exact ⟨rfl, few⟩

end Accepted

/-! ## Whole units -/

/-- A number is a whole number of units, of 64 bits with at most 53 significant ones. -/
def WholeUnits (scale : Int) (number : ℚ) : Prop :=
  ∃ units : Int, number * tenTo scale = units ∧ inInt64 units = true ∧ Representable units

theorem compare_cast (left right : Int) : compare (left : ℚ) right = compare left right := by
  rcases lt_trichotomy left right with below | rfl | above
  · rw [compare_lt_iff_lt.mpr below, compare_lt_iff_lt.mpr (Int.cast_lt.mpr below)]
  · rw [compare_eq_iff_eq.mpr rfl, compare_eq_iff_eq.mpr rfl]
  · rw [compare_gt_iff_gt.mpr above, compare_gt_iff_gt.mpr (Int.cast_lt.mpr above)]

theorem wholeUnits_of_abs {scale precision : Int} {number : ℚ} (few : precision ≤ 18)
    (magnitude : |number * tenTo scale| = tenTo precision) : WholeUnits scale number := by
  have most : tenTo precision ≤ 10 ^ 18 := tenTo_le few
  have digits : 5 ^ precision.toNat < 2 ^ 53 := (five_pow_lt (by omega)).trans (by decide)
  have inRange {units : Int} (same : units.natAbs = tenTo precision) : inInt64 units = true := by
    unfold inInt64 int64Min int64Max
    simp only [Bool.and_eq_true, decide_eq_true_eq]
    omega
  rcases eq_or_eq_neg_of_abs_eq magnitude with same | same
  · refine ⟨tenTo precision, same, inRange (Int.natAbs_natCast _), 5 ^ precision.toNat, precision.toNat, digits, ?_⟩
    rw [Int.natAbs_natCast, tenTo_eq]
  · refine ⟨-tenTo precision, ?_, inRange ?_, 5 ^ precision.toNat, precision.toNat, digits, ?_⟩
    · rw [same, Int.cast_neg, Int.cast_natCast]
    · rw [Int.natAbs_neg, Int.natAbs_natCast]
    · rw [Int.natAbs_neg, Int.natAbs_natCast, tenTo_eq]

/-- A double that is a whole number of units has few places: each takes a factor of five from the 53 bits. -/
theorem scale_le {value : Float} {number : ℚ} {scale units : Int} (isNumber : exactValue value = some number)
    (same : number * tenTo scale = units) (nonzero : units ≠ 0) (representable : Representable units) :
    scale ≤ 22 := by
  have numberNonzero : number ≠ 0 := by
    rintro rfl
    rw [zero_mul] at same
    exact nonzero (by exact_mod_cast same.symm)
  obtain ⟨sign, mantissa, exponent, positive, -, rfl⟩ := finite_of_nonzero isNumber numberNonzero
  obtain ⟨digits, shift, small, magnitude⟩ := representable
  have scaled : ((mantissa * 5 ^ scale.toNat : ℕ) : ℚ) * 2 ^ (exponent + scale.toNat) = digits * 2 ^ (shift : ℤ) := by
    have magnitudes := congrArg (fun number : ℚ => |number|) same
    simp only [mul_assoc, sign_apply_abs] at magnitudes
    rw [abs_of_nonneg (by positivity), ← Int.cast_abs, Int.abs_eq_natAbs, magnitude, tenTo_eq] at magnitudes
    rw [zpow_add₀ (two_ne_zero' ℚ), zpow_natCast, zpow_natCast]
    push_cast at magnitudes ⊢
    rw [← magnitudes]
    ring
  have divides : 5 ^ scale.toNat ∣ digits := dvd_of_scaled (Nat.Coprime.pow_left _ (by norm_num)) scaled
  have digitsPositive : 0 < digits := by
    rcases Nat.eq_zero_or_pos digits with rfl | above
    · rw [Nat.zero_mul] at magnitude
      exact absurd (Int.natAbs_eq_zero.mp magnitude) nonzero
    · exact above
  have least := Nat.le_of_dvd digitsPositive divides
  by_contra many
  have power : 5 ^ 23 ≤ 5 ^ scale.toNat := Nat.pow_le_pow_right (by decide) (by omega)
  have large : 2 ^ 53 < 5 ^ 23 := by norm_num
  omega

/-- A double that is a whole number of units is rounded to that number. -/
theorem roundToScale_whole {value : Float} {number : ℚ} {scale units : Int} (most : scale ≤ 38)
    (isNumber : exactValue value = some number) (same : number * tenTo scale = units)
    (inRange : inInt64 units = true) (representable : Representable units) :
    roundToScale scale value = some units := by
  have product : exactValue (value * ofInteger (tenTo scale)) = some (units : ℚ) := by
    obtain ⟨_, factorParts⟩ := unpack_tenTo most
    rcases eq_or_ne units 0 with rfl | nonzero
    · have power : (tenTo scale : ℚ) ≠ 0 := by exact_mod_cast (tenTo_pos scale).ne'
      obtain rfl : number = 0 := by simpa [power] using same
      exact (exactValue_mul_zero isNumber factorParts).trans (congrArg some Int.cast_zero.symm)
    · have few := scale_le isNumber same nonzero representable
      have factor : ((normalParts (tenTo scale)).2 : ℚ) * 2 ^ (normalParts (tenTo scale)).1 = tenTo scale :=
        nearest_tenTo few
      have bounds := inInt64_bounds inRange
      exact exactValue_mul_exact isNumber factorParts (normalParts_bounds (tenTo_pos scale)).1
        (factor.symm ▸ same) nonzero (by omega) representable
  exact Option.filter_eq_some_iff.mpr ⟨roundHalfAway_integer product, inRange⟩

/-! ## When the comparisons are exact -/

/-- Rounding four times does not take a number out of a width that has room for it. -/
theorem roundings_lt {digits bits : Nat} {magnitude : ℤ} (room : 10 ^ digits * (2 ^ 53 + 8) < 2 ^ bits * 2 ^ 53)
    (most : (magnitude : ℚ) ≤ 10 ^ digits * (1 + 1 / 2 ^ 53) ^ 4) : magnitude < 2 ^ bits := by
  have factor : ((1 : ℚ) + 1 / 2 ^ 53) ^ 4 * 2 ^ 53 ≤ 2 ^ 53 + 8 := by norm_num
  have space : (10 : ℚ) ^ digits * (2 ^ 53 + 8) < 2 ^ bits * 2 ^ 53 := by exact_mod_cast room
  have below : (magnitude : ℚ) * 2 ^ 53 < 2 ^ bits * 2 ^ 53 := by
    calc (magnitude : ℚ) * 2 ^ 53 ≤ 10 ^ digits * (1 + 1 / 2 ^ 53) ^ 4 * 2 ^ 53 :=
          mul_le_mul_of_nonneg_right most (by positivity)
      _ = 10 ^ digits * ((1 + 1 / 2 ^ 53) ^ 4 * 2 ^ 53) := mul_assoc _ _ _
      _ ≤ 10 ^ digits * (2 ^ 53 + 8) := mul_le_mul_of_nonneg_left factor (by positivity)
      _ < 2 ^ bits * 2 ^ 53 := space
  exact_mod_cast lt_of_mul_lt_mul_right below (by positivity)

/-- The units of an accepted integer fit the width of the precision. -/
theorem storedUnits_integer {precision scale : Int} (valid : ValidDecimal precision scale) {value : Int64}
    (accepted : exceedsDecimal (.int64 value) (decimalType precision scale) = false) :
    storedUnits precision (value.toInt * tenTo scale) = value.toInt * tenTo scale := by
  rcases eq_or_ne value.toInt 0 with zero | nonzero
  · rw [zero, Int.zero_mul]
    exact storedUnits_eq (fun _ => by decide) (fun _ => by decide) (by decide)
  have power := tenTo_pos scale
  have valueSmall : value.toInt.natAbs.log2 < 400 := by
    have low := Int64.le_toInt value
    have high := Int64.toInt_lt value
    exact ((Nat.log2_lt (Int.natAbs_pos.mpr nonzero).ne').mpr (by omega : _ < 2 ^ 64)).trans (by decide)
  have powerSmall : (tenTo scale : ℤ).natAbs.log2 < 400 :=
    (log2_tenTo (valid.within.trans valid.most)).trans (by decide)
  obtain ⟨result, isResult, short⟩ := le_ofInteger_mul nonzero (by omega) valueSmall powerSmall
  have below := (product_le_top valid (exactValue_ofInteger nonzero (by omega)) accepted isResult).2
  have most : ((|value.toInt * tenTo scale| : ℤ) : ℚ) ≤ tenTo precision * (1 + 1 / 2 ^ 53) ^ 4 := by
    have magnitude : |value.toInt * tenTo scale| = ((value.toInt.natAbs * (tenTo scale : ℤ).natAbs : ℕ) : ℤ) := by
      rw [Int.abs_eq_natAbs, Int.natAbs_mul]
    rw [magnitude, Int.cast_natCast]
    calc _ ≤ |result| * (1 + 1 / 2 ^ 53) ^ 3 := short
      _ ≤ tenTo precision * (1 + 1 / 2 ^ 53) * (1 + 1 / 2 ^ 53) ^ 3 :=
        mul_le_mul_of_nonneg_right below (by positivity)
      _ = tenTo precision * (1 + 1 / 2 ^ 53) ^ 4 := by ring
  have atMost {digits : Nat} (few : precision ≤ digits) :
      ((|value.toInt * tenTo scale| : ℤ) : ℚ) ≤ 10 ^ digits * (1 + 1 / 2 ^ 53) ^ 4 := by
    have wide : (tenTo precision : ℚ) ≤ 10 ^ digits := by exact_mod_cast tenTo_le few
    exact most.trans (mul_le_mul_of_nonneg_right wide (by positivity))
  exact storedUnits_eq (fun small => roundings_lt (by norm_num) (atMost small))
    (fun small => roundings_lt (by norm_num) (atMost small)) (roundings_lt (by norm_num) (atMost valid.most))

section Doubles

variable {value : Float} {number : ℚ} {precision scale : Int} (valid : ValidDecimal precision scale)
  (isNumber : exactValue value = some number)
  (accepted : exceedsDecimal (.double value) (decimalType precision scale) = false)
include valid isNumber accepted

theorem wholeUnits_of_orders
    (orders : ∀ units : Int, |units| < tenTo precision →
      compare units (storedUnits precision (literalUnits scale (.float value))) =
        compare (units : ℚ) (number * tenTo scale)) : WholeUnits scale number := by
  cases ran : roundToScale scale value with
  | none =>
    have stored : storedUnits precision (literalUnits scale (.float value)) = 0 := by
      rw [literalUnits, ran]
      exact storedUnits_eq (fun _ => by decide) (fun _ => by decide) (by decide)
    have order := orders 0 (by exact_mod_cast tenTo_pos precision)
    rw [stored, compare_eq_iff_eq.mpr rfl] at order
    exact ⟨0, (compare_eq_iff_eq.mp order.symm).symm, by decide, 0, 0, by decide, rfl⟩
  | some raw =>
    rcases Int.lt_or_le |raw| (tenTo precision) with small | beyond
    · have stored : storedUnits precision (literalUnits scale (.float value)) = raw := by
        rw [literalUnits, ran]
        exact storedUnits_rounded valid isNumber accepted ran
      have order := orders raw small
      rw [stored, compare_eq_iff_eq.mpr rfl] at order
      obtain ⟨rounded, inRange⟩ := Option.filter_eq_some_iff.mp ran
      exact ⟨raw, (compare_eq_iff_eq.mp order.symm).symm, inRange, representable_of_roundHalfAway rounded⟩
    · obtain ⟨magnitude, few⟩ := wholeUnits_of_beyond valid isNumber accepted ran beyond
      exact wholeUnits_of_abs few magnitude

theorem storedUnits_whole {units : Int} (same : number * tenTo scale = units) (inRange : inInt64 units = true)
    (representable : Representable units) :
    storedUnits precision (literalUnits scale (.float value)) = units := by
  have ran := roundToScale_whole (valid.within.trans valid.most) isNumber same inRange representable
  rw [literalUnits, ran]
  exact storedUnits_rounded valid isNumber accepted ran

end Doubles

/-- The comparisons of a decimal column with a literal are exact if the literal is rejected, an integer, or a whole
number of units that keeps its digits, and only then. -/
theorem comparesExactly_iff {cudf : Gpu.Cudf} {precision scale : Int} {literal : AstLiteral} {number : ℚ}
    (compares : ComparesUnits cudf) (valid : ValidDecimal precision scale)
    (isNumber : literalNumber literal = some number) :
    ComparesExactly cudf precision scale literal number ↔
      exceedsDecimal (storageOf literal) (decimalType precision scale) = true ∨
        (∃ value, literal = .integer value) ∨ WholeUnits scale number := by
  cases accepted : exceedsDecimal (storageOf literal) (decimalType precision scale) with
  | true =>
    refine iff_of_true ?_ (.inl rfl)
    intro name index nullable flipped op bound comparison isBound
    rw [comparisonWith_eq isNumber comparison, if_pos accepted] at isBound
    cases isBound
  | false =>
    constructor
    · intro exact
      have orders := orders_of_comparesExactly compares isNumber accepted exact
      cases literal with
      | integer value => exact .inr (.inl ⟨value, rfl⟩)
      | float value => exact .inr (.inr (wholeUnits_of_orders valid isNumber accepted orders))
      | string => cases isNumber
      | boolean => cases isNumber
      | date => cases isNumber
      | null => cases isNumber
    · intro whole
      refine comparesExactly_of_orders compares isNumber fun units small => ?_
      rcases whole with rejected | ⟨value, rfl⟩ | ⟨raw, same, inRange, representable⟩
      · cases rejected
      · obtain rfl := Option.some.inj isNumber
        rw [literalUnits, storedUnits_integer valid accepted, ← compare_cast]
        push_cast
        rfl
      · cases literal with
        | integer value =>
          obtain rfl := Option.some.inj isNumber
          rw [literalUnits, storedUnits_integer valid accepted, ← compare_cast]
          push_cast
          rfl
        | float value =>
          rw [storedUnits_whole valid isNumber accepted same inRange representable, same, compare_cast]
        | string => cases isNumber
        | boolean => cases isNumber
        | date => cases isNumber
        | null => cases isNumber

/-- A library that compares decimals and does nothing else. -/
def comparingCudf : Gpu.Cudf where
  quotientByZero _ dividend := dividend
  binary op left right :=
    match op.meaning, left, right with
    | some meaning, ⟨.decimal, left⟩, ⟨.decimal, right⟩ =>
      .ok ⟨.boolean, left.bind (fun left : Int =>
        right.map (fun right : Int => accepts meaning (compare left right)))⟩
    | _, _, _ => .error Gpu.invalidOperation
  cast _ _ := .error Gpu.invalidOperation

theorem comparesUnits_comparingCudf : ComparesUnits comparingCudf := by
  intro op meaning isMeaning _ left right
  simp only [comparingCudf, isMeaning]
  rfl

theorem tenTo_two : tenTo 2 = 100 := rfl

/-- `0.25` is 25 units of a hundredth. -/
theorem comparesExactly_quarter : ComparesExactly comparingCudf 5 2 (.float 0.25) (1 / 4) :=
  (comparesExactly_iff comparesUnits_comparingCudf ⟨by decide, by decide, by decide, by decide⟩
    (by decide +kernel)).mpr (.inr (.inr ⟨25, by norm_num [tenTo_two], by decide, 25, 0, by decide, rfl⟩))

/-- `0.125` is compared as 13 units of a hundredth, and is equal to `0.13`. -/
theorem not_comparesExactly_eighth :
    literalNumber (.float 0.125) = some (1 / 8) ∧ ValidDecimal 5 2 ∧ ComparesUnits comparingCudf ∧
      ¬ ComparesExactly comparingCudf 5 2 (.float 0.125) (1 / 8) := by
  have isNumber : literalNumber (.float 0.125) = some (1 / 8) := by decide +kernel
  refine ⟨isNumber, ⟨by decide, by decide, by decide, by decide⟩, comparesUnits_comparingCudf, fun exact => ?_⟩
  have accepted : exceedsDecimal (storageOf (.float 0.125)) (decimalType 5 2) = false := by decide +kernel
  have stored : storedUnits 5 (literalUnits 2 (.float 0.125)) = 13 := by decide +kernel
  have order := orders_of_comparesExactly comparesUnits_comparingCudf isNumber accepted exact 13 (by decide)
  rw [stored, compare_eq_iff_eq.mpr rfl] at order
  have same := compare_eq_iff_eq.mp order.symm
  norm_num [tenTo_two] at same

end KernelLake.DecimalComparisons
