import KernelLake.Library.DoubleProducts

/-!
How far a product of doubles is from the product of their numbers.

A product that is too large for a double is infinite, and one that is too small for a normal double is below one.
A finite product of at least one is therefore the exact product, rounded once by one part in `2 ^ 53` at most.
-/

namespace KernelLake.Library.DoubleBounds

open KernelLake.Library.Doubles KernelLake.Library.DoubleValues KernelLake.Library.DoubleRounding
open KernelLake.Library.DoubleProducts
open Float.Model (UnpackedFloat Format totalExponent)
open Float.Model.UnpackedFloat

/-! ## Beyond the normal doubles -/

theorem unpack_pack_infinite {sign : Sign} {mantissa : Nat} {exponent : ℤ} {nonzero : 0 < mantissa}
    (beyond : 971 < exponent) :
    (Float.Model.pack (.finite sign mantissa exponent nonzero)).unpack = .infinity sign := by
  have largest : 2 ^ Format.binary64.exponentBits ≤ (exponent + (Format.binary64.exponentBias : ℤ) +
      (Format.binary64.mantissaBitsWithoutImplicit : ℤ)).toNat + 1 := by
    simp only [Format.exponentBias]
    norm_num
    omega
  change UnpackedFloat.unpack Format.binary64 (UnpackedFloat.pack Format.binary64 _) = _
  unfold UnpackedFloat.pack
  simp only [largest, if_true]
  cases sign <;> rfl

theorem value_zero (sign : Sign) : unpackedValue (Float.Model.pack (.zero sign)).unpack = some 0 := by
  cases sign <;> decide +kernel

section Components

variable {sign : Sign} {exponent : BitVec Format.binary64.exponentBits}
variable {mantissa : BitVec Format.binary64.mantissaBitsWithoutImplicit} {number : ℚ}

theorem value_packComponents_positive (isNumber : unpackedValue (UnpackedFloat.unpack Format.binary64
    (packComponents Format.binary64 .positive exponent mantissa)) = some number) : 0 ≤ number := by
  have positive : Sign.ofBitVec (Sign.positive.toBitVec) = .positive := rfl
  unfold UnpackedFloat.unpack at isNumber
  simp only [Doubles.unpackSign_packComponents, unpackExponent_packComponents, unpackMantissa_packComponents]
    at isNumber
  split at isNumber
  · split at isNumber <;> cases isNumber
  · split at isNumber
    · split at isNumber
      · rw [← Option.some.inj isNumber]
      · rw [← Option.some.inj isNumber]
        simp only [Sign.apply]
        positivity
    · rw [← Option.some.inj isNumber]
      simp only [Sign.apply]
      positivity

theorem scaled_least_lt_one {sign : Sign} {mantissa : Nat} (bounded : mantissa < 2 ^ 53) :
    |((sign.apply mantissa : ℤ) : ℚ) * 2 ^ (-1074 : ℤ)| < 1 := by
  have factor : ((sign.apply (mantissa : ℤ) : ℤ) : ℚ) = (sign.apply 1 : ℤ) * (mantissa : ℚ) := by
    cases sign <;> simp [Sign.apply]
  have below : (mantissa : ℚ) < 2 ^ 53 := by exact_mod_cast bounded
  rw [factor, mul_assoc, sign_apply_abs, abs_of_nonneg (by positivity)]
  calc (mantissa : ℚ) * 2 ^ (-1074 : ℤ) < 2 ^ 53 * 2 ^ (-1074 : ℤ) :=
        mul_lt_mul_of_pos_right below (by positivity)
    _ = 2 ^ (-1021 : ℤ) := by
        rw [← zpow_natCast, ← zpow_add₀ (two_ne_zero' ℚ)]
        rfl
    _ ≤ 1 := zpow_le_one_of_nonpos₀ (by norm_num) (by norm_num)

/-- The doubles with the least exponent are below one. -/
theorem value_packComponents_small (small : exponent.toNat ≤ 1) (isNumber : unpackedValue
    (UnpackedFloat.unpack Format.binary64 (packComponents Format.binary64 sign exponent mantissa)) = some number) :
    |number| < 1 := by
  have canonical := canonical_unpack (packComponents Format.binary64 sign exponent mantissa)
  have least : (exponent.toNat : ℤ) - ((Format.binary64.exponentBias : ℤ) +
      (Format.binary64.mantissaBitsWithoutImplicit : ℤ)) ≤ -1074 := by
    simp only [Format.exponentBias]
    norm_num
    omega
  have finite : exponent ≠ -1#_ := by
    rintro rfl
    exact absurd small (by decide)
  unfold UnpackedFloat.unpack at isNumber canonical
  simp only [Doubles.unpackSign_packComponents, unpackExponent_packComponents, unpackMantissa_packComponents,
    finite, if_false] at isNumber canonical
  split at isNumber
  · split at isNumber
    · rw [← Option.some.inj isNumber]
      norm_num
    · rename_i zeroExponent nonzero
      simp only [zeroExponent, nonzero, if_true, dite_false] at canonical
      rw [← Option.some.inj isNumber]
      have same : ((BitVec.ofNat Format.binary64.exponentBits 0).toNat : ℤ) - ((Format.binary64.exponentBias : ℤ) +
          (Format.binary64.mantissaBitsWithoutImplicit : ℤ)) + 1 = -1074 := rfl
      rw [zeroExponent, same]
      exact scaled_least_lt_one canonical.1
  · rename_i normal
    simp only [normal, if_false] at canonical
    rw [← Option.some.inj isNumber, le_antisymm least canonical.2.1]
    exact scaled_least_lt_one canonical.1

end Components

/-! ## Rounding to the least exponent -/

theorem targetExponent_least {mantissa : Nat} {exponent : ℤ} (narrow : (mantissa.log2 : ℤ) - 52 + exponent ≤ -1074) :
    Format.binary64.targetExponent (totalExponent mantissa exponent) = -1074 := by
  unfold Format.targetExponent totalExponent Format.minExponent Format.mantissaBits
  norm_num
  omega

theorem shiftToTargetExponent_least {mantissa shift : Nat}
    (narrow : mantissa < 2 ^ (53 + shift)) :
    shiftToTargetExponent Format.binary64 mantissa (-1074 - shift) .exact =
      (ExtendedMantissa.mk mantissa false false >>> shift, -1074) := by
  have width : mantissa.log2 ≤ 52 + shift := by
    rcases Nat.eq_zero_or_pos mantissa with rfl | positive
    · simp
    · have := (Nat.log2_lt positive.ne').mpr narrow
      omega
  have amount : (-1074 - (-1074 - (shift : ℤ))).toNat = shift := by omega
  simp only [shiftToTargetExponent, shiftToExponent, targetExponent_least (by omega :
    (mantissa.log2 : ℤ) - 52 + (-1074 - shift) ≤ -1074), amount, ExtendedMantissa.ofMantissaAndAccuracy]
  congr 1
  omega

/-- What is rounded to the least exponent is below one. -/
theorem value_roundWithAccuracy_small {sign : Sign} {mantissa : Nat} {exponent : ℤ} {number : ℚ}
    (wide : 52 ≤ mantissa.log2) (narrow : (mantissa.log2 : ℤ) - 52 + exponent < -1074)
    (isNumber : unpackedValue (Float.Model.pack
      (roundWithAccuracy Format.binary64 sign mantissa exponent .exact)).unpack = some number) : |number| < 1 := by
  obtain ⟨shift, shiftEq⟩ : ∃ shift : Nat, exponent = -1074 - shift := ⟨(-1074 - exponent).toNat, by omega⟩
  have positive : 0 < mantissa := by
    by_contra zero
    rw [show mantissa = 0 by omega] at wide
    exact absurd wide (by decide)
  have below : mantissa < 2 ^ (52 + shift) :=
    (log2_bounds positive).2.trans_le (Nat.pow_le_pow_right (by decide) (by omega))
  have rounded : nearestShift shift mantissa ≤ 2 ^ 52 := by
    have most := Nat.mul_le_mul_right (2 ^ shift) (nearestShift_mono shift below.le)
    rw [nearestShift_exact (pow_dvd_pow 2 (Nat.le_add_left shift 52)), Nat.pow_add] at most
    exact Nat.le_of_mul_le_mul_right most (Nat.two_pow_pos shift)
  have first := @shiftToTargetExponent_least mantissa shift
    (below.trans_le (Nat.pow_le_pow_right (by decide) (by omega)))
  have second := @shiftToTargetExponent_least (nearestShift shift mantissa) 0 (by omega)
  rw [Nat.cast_zero, sub_zero] at second
  simp only [roundWithAccuracy, shiftEq, first, roundedMantissa_shiftRight, second] at isNumber
  split at isNumber
  · exact value_packComponents_small (by decide) isNumber
  · change unpackedValue (UnpackedFloat.unpack Format.binary64 (UnpackedFloat.pack Format.binary64 _)) = _ at isNumber
    rw [@pack_finite _ _ _ _ 1 rfl (by decide)] at isNumber
    refine value_packComponents_small ?_ isNumber
    split <;> decide

/-! ## Products -/

section Products

variable {left right : Float} {number result : ℚ} {mantissa : Nat} {exponent : ℤ} {positive : 0 < mantissa}

theorem mul_parts {leftSign rightSign : Sign} {leftMantissa rightMantissa : Nat} {leftExponent rightExponent : ℤ}
    {leftNonzero : 0 < leftMantissa} {rightNonzero : 0 < rightMantissa}
    (leftParts : left.toModel.unpack = .finite leftSign leftMantissa leftExponent leftNonzero)
    (rightParts : right.toModel.unpack = .finite rightSign rightMantissa rightExponent rightNonzero) :
    (left * right).toModel.unpack = (Float.Model.pack (roundWithAccuracy Format.binary64
      (leftSign * rightSign) (leftMantissa * rightMantissa) (leftExponent + rightExponent) .exact)).unpack := by
  change (Float.Model.pack (UnpackedFloat.mul Format.binary64 left.toModel.unpack right.toModel.unpack)).unpack = _
  rw [leftParts, rightParts]
  rfl

/-- A product between one and `2 ^ 1000` was rounded as a normal number. -/
theorem mul_range {sign : Sign} {mantissa : Nat} {exponent : ℤ} (wide : 52 ≤ mantissa.log2)
    (isResult : unpackedValue (Float.Model.pack
      (roundWithAccuracy Format.binary64 sign mantissa exponent .exact)).unpack = some result)
    (atLeast : 1 ≤ |result|) (atMost : |result| < 2 ^ 1000) :
    -1022 ≤ (mantissa.log2 : ℤ) + exponent ∧ (mantissa.log2 : ℤ) + exponent ≤ 1022 := by
  have lower : -1074 ≤ (mantissa.log2 : ℤ) - 52 + exponent := by
    by_contra narrow
    exact absurd (value_roundWithAccuracy_small wide (by omega) isResult) (not_lt.mpr atLeast)
  refine ⟨by omega, ?_⟩
  by_contra large
  have positive : 0 < mantissa := by
    by_contra zero
    rw [show mantissa = 0 by omega] at wide
    exact absurd wide (by decide)
  obtain ⟨bits, bounded⟩ := normalParts_bounds positive
  have exponents := normalParts_exponent mantissa
  obtain ⟨nonzero, rounded⟩ := roundWithAccuracy_wide wide lower sign
  rw [rounded] at isResult
  rcases Int.lt_or_le 971 ((normalParts mantissa).1 + exponent) with beyond | within
  · rw [unpack_pack_infinite beyond] at isResult
    cases isResult
  · rw [unpack_pack_normal nonzero bits bounded ⟨by omega, within⟩, unpackedValue_finite] at isResult
    rw [← Option.some.inj isResult, sign_apply_abs, abs_of_nonneg (by positivity)] at atMost
    have most : (2 : ℚ) ^ (948 : ℤ) ≤ 2 ^ ((normalParts mantissa).1 + exponent) :=
      zpow_le_zpow_right₀ (by norm_num) (by omega)
    have least : (2 : ℚ) ^ 52 ≤ (normalParts mantissa).2 := by exact_mod_cast bits
    have product : (2 : ℚ) ^ (1000 : ℤ) ≤ (normalParts mantissa).2 * 2 ^ ((normalParts mantissa).1 + exponent) := by
      calc (2 : ℚ) ^ (1000 : ℤ) = 2 ^ 52 * 2 ^ (948 : ℤ) := by
            rw [← zpow_natCast, ← zpow_add₀ (two_ne_zero' ℚ)]
            rfl
        _ ≤ _ := mul_le_mul least most (by positivity) (by positivity)
    rw [← zpow_natCast] at atMost
    exact absurd atMost (not_lt.mpr product)

theorem exactValue_mul_zero {sign : Sign} (isZero : exactValue left = some 0)
    (rightParts : right.toModel.unpack = .finite sign mantissa exponent positive) :
    exactValue (left * right) = some 0 := by
  unfold exactValue at isZero ⊢
  change unpackedValue (Float.Model.pack (UnpackedFloat.mul Format.binary64 left.toModel.unpack
    right.toModel.unpack)).unpack = _
  cases parts : left.toModel.unpack with
  | notANumber =>
    rw [parts] at isZero
    cases isZero
  | infinity =>
    rw [parts] at isZero
    cases isZero
  | zero leftSign =>
    rw [rightParts]
    exact value_zero (leftSign * sign)
  | finite leftSign leftMantissa leftExponent leftPositive =>
    rw [parts, unpackedValue_finite] at isZero
    have zero := congrArg (fun number : ℚ => |number|) (Option.some.inj isZero)
    simp only [sign_apply_abs, abs_zero] at zero
    have nonzero : (0 : ℚ) < leftMantissa * 2 ^ leftExponent := value_positive leftPositive
    rw [abs_of_pos nonzero] at zero
    exact absurd zero nonzero.ne'

section Factor

variable (isNumber : exactValue left = some number)
variable (rightParts : right.toModel.unpack = .finite .positive mantissa exponent positive)
variable (isResult : exactValue (left * right) = some result)
include isNumber rightParts isResult

/-- The product of numbers that are not negative is not negative. -/
theorem mul_nonneg_value (nonneg : 0 ≤ number) : 0 ≤ result := by
  rcases nonneg.eq_or_lt with rfl | above
  · rw [exactValue_mul_zero isNumber rightParts] at isResult
    exact (Option.some.inj isResult).le
  obtain ⟨sign, leftMantissa, leftExponent, leftPositive, leftParts, rfl⟩ :=
    finite_of_nonzero isNumber above.ne'
  rw [exactValue, mul_parts leftParts rightParts] at isResult
  cases sign with
  | negative =>
    have nonzero : (0 : ℚ) < leftMantissa * 2 ^ leftExponent := value_positive leftPositive
    simp only [Sign.apply, Int.cast_neg, Int.cast_one] at above
    linarith
  | positive =>
    change unpackedValue (UnpackedFloat.unpack Format.binary64 (UnpackedFloat.pack Format.binary64
      (roundWithAccuracy Format.binary64 .positive _ _ .exact))) = _ at isResult
    unfold roundWithAccuracy at isResult
    simp only at isResult
    split at isResult
    · exact value_packComponents_positive isResult
    · unfold UnpackedFloat.pack at isResult
      simp only at isResult
      split at isResult
      · exact value_packComponents_positive isResult
      · split at isResult <;> exact value_packComponents_positive isResult

/-- A product of at least one is the product of the numbers up to one part in `2 ^ 53`. -/
theorem mul_near (normal : 2 ^ 52 ≤ mantissa) (atLeast : 1 ≤ |result|) (atMost : |result| < 2 ^ 1000) :
    |result - number * (mantissa * 2 ^ exponent)| * 2 ^ 53 ≤ |number * (mantissa * 2 ^ exponent)| := by
  have nonzero : number ≠ 0 := by
    rintro rfl
    rw [exactValue_mul_zero isNumber rightParts] at isResult
    rw [← Option.some.inj isResult, abs_zero] at atLeast
    exact absurd atLeast (by norm_num)
  obtain ⟨sign, leftMantissa, leftExponent, leftPositive, leftParts, rfl⟩ := finite_of_nonzero isNumber nonzero
  have bothPositive : 0 < leftMantissa * mantissa := Nat.mul_pos leftPositive positive
  have wide : 52 ≤ (leftMantissa * mantissa).log2 := by
    apply (Nat.le_log2 bothPositive.ne').mpr
    exact normal.trans (Nat.le_mul_of_pos_left mantissa leftPositive)
  have range : -1022 ≤ ((leftMantissa * mantissa).log2 : ℤ) + (leftExponent + exponent) ∧
      ((leftMantissa * mantissa).log2 : ℤ) + (leftExponent + exponent) ≤ 1022 := by
    rw [exactValue, mul_parts leftParts rightParts] at isResult
    exact mul_range wide isResult atLeast atMost
  rw [exactValue_mul leftParts rightParts wide range.1 range.2] at isResult
  obtain rfl := Option.some.inj isResult
  have power : (0 : ℚ) < 2 ^ (leftExponent + exponent) := by positivity
  have product : (sign.apply 1 : ℤ) * ((leftMantissa : ℚ) * 2 ^ leftExponent) * (mantissa * 2 ^ exponent) =
      (sign.apply 1 : ℤ) * (((leftMantissa * mantissa : ℕ) : ℚ) * 2 ^ (leftExponent + exponent)) := by
    rw [zpow_add₀ (two_ne_zero' ℚ)]
    push_cast
    ring
  have same : sign * Sign.positive = sign := by cases sign <;> rfl
  rw [same, product, ← mul_sub, ← sub_mul, sign_apply_abs, sign_apply_abs, abs_mul, abs_mul, abs_of_pos power,
    mul_right_comm]
  refine mul_le_mul_of_nonneg_right ?_ power.le
  rw [Nat.abs_cast]
  have error := mul_le_mul_of_nonneg_right (nearest_error (leftMantissa * mantissa))
    (show (0 : ℚ) ≤ 2 ^ 53 by positivity)
  have least : (2 : ℚ) ^ (leftMantissa * mantissa).log2 ≤ ((leftMantissa * mantissa : ℕ) : ℚ) := by
    exact_mod_cast (log2_bounds bothPositive).1
  refine error.trans (le_trans (le_of_eq ?_) least)
  rw [← zpow_natCast, ← zpow_natCast, ← zpow_add₀ (two_ne_zero' ℚ)]
  congr 1
  push_cast
  omega

end Factor

end Products

/-! ## Integers -/

/-- The double of a positive integer falls short of it by one part in `2 ^ 53` at most, and so does the product
of two. -/
theorem le_ofInteger_mul {left right : ℤ} (leftNonzero : left ≠ 0) (rightNonzero : right ≠ 0)
    (leftSmall : left.natAbs.log2 < 400) (rightSmall : right.natAbs.log2 < 400) :
    ∃ result, exactValue (ofInteger left * ofInteger right) = some result ∧
      ((left.natAbs * right.natAbs : ℕ) : ℚ) ≤ |result| * (1 + 1 / 2 ^ 53) ^ 3 := by
  have leftPositive : 0 < left.natAbs := Int.natAbs_pos.mpr leftNonzero
  have rightPositive : 0 < right.natAbs := Int.natAbs_pos.mpr rightNonzero
  obtain ⟨_, leftParts⟩ := unpack_ofInteger leftNonzero (by omega)
  obtain ⟨_, rightParts⟩ := unpack_ofInteger rightNonzero (by omega)
  have leftBounds := normalParts_bounds leftPositive
  have rightBounds := normalParts_bounds rightPositive
  have leftExponent := normalParts_exponent left.natAbs
  have rightExponent := normalParts_exponent right.natAbs
  have leftShort := le_nearest leftPositive
  have rightShort := le_nearest rightPositive
  unfold nearest at leftShort rightShort
  generalize (normalParts left.natAbs).2 = leftMantissa at *
  generalize (normalParts right.natAbs).2 = rightMantissa at *
  generalize (normalParts left.natAbs).1 = first at *
  generalize (normalParts right.natAbs).1 = second at *
  have positive : 0 < leftMantissa * rightMantissa := Nat.mul_pos (by omega) (by omega)
  have lower : 104 ≤ (leftMantissa * rightMantissa).log2 := by
    apply (Nat.le_log2 positive.ne').mpr
    calc 2 ^ 104 = 2 ^ 52 * 2 ^ 52 := by norm_num
      _ ≤ leftMantissa * rightMantissa := Nat.mul_le_mul leftBounds.1 rightBounds.1
  have upper : (leftMantissa * rightMantissa).log2 < 106 := by
    apply (Nat.log2_lt positive.ne').mpr
    calc leftMantissa * rightMantissa < 2 ^ 53 * 2 ^ 53 := Nat.mul_lt_mul'' leftBounds.2 rightBounds.2
      _ = 2 ^ 106 := by norm_num
  refine ⟨_, exactValue_mul leftParts rightParts (by omega) (by omega) (by omega), ?_⟩
  have power : (0 : ℚ) < 2 ^ (first + second) := by positivity
  rw [sign_apply_abs, abs_of_nonneg (mul_nonneg ((by positivity : (0 : ℚ) ≤ 2 ^ _).trans (nearest_ge_power positive))
    power.le)]
  have short := mul_le_mul_of_nonneg_right (le_nearest positive) power.le
  calc ((left.natAbs * right.natAbs : ℕ) : ℚ) ≤
        (leftMantissa * 2 ^ first * (1 + 1 / 2 ^ 53)) * (rightMantissa * 2 ^ second * (1 + 1 / 2 ^ 53)) := by
        rw [Nat.cast_mul]
        exact mul_le_mul leftShort rightShort (by positivity) (by positivity)
    _ = ((leftMantissa * rightMantissa : ℕ) : ℚ) * 2 ^ (first + second) * (1 + 1 / 2 ^ 53) ^ 2 := by
        rw [zpow_add₀ (two_ne_zero' ℚ)]
        push_cast
        ring
    _ ≤ nearest (leftMantissa * rightMantissa) * (1 + 1 / 2 ^ 53) * 2 ^ (first + second) *
          (1 + 1 / 2 ^ 53) ^ 2 := mul_le_mul_of_nonneg_right short (by positivity)
    _ = _ := by ring

/-- An odd factor is not hidden by powers of two. -/
theorem dvd_of_scaled {multiple factor digits : Nat} {exponent other : ℤ} (odd : Nat.Coprime factor 2)
    (same : ((multiple * factor : ℕ) : ℚ) * 2 ^ exponent = digits * 2 ^ other) : factor ∣ digits := by
  rcases Int.le_total exponent other with within | beyond
  · obtain ⟨more, moreEq⟩ := Int.eq_ofNat_of_zero_le (sub_nonneg.mpr within)
    have positive : (2 : ℚ) ^ exponent ≠ 0 := by positivity
    have whole : multiple * factor = digits * 2 ^ more := by
      rw [show other = more + exponent by omega, zpow_add₀ (two_ne_zero' ℚ), zpow_natCast, ← mul_assoc,
        mul_left_inj' positive] at same
      exact_mod_cast same
    exact (Nat.Coprime.pow_right more odd).dvd_of_dvd_mul_right (Dvd.intro_left multiple whole)
  · obtain ⟨more, moreEq⟩ := Int.eq_ofNat_of_zero_le (sub_nonneg.mpr beyond)
    have positive : (2 : ℚ) ^ other ≠ 0 := by positivity
    have whole : multiple * factor * 2 ^ more = digits := by
      rw [show exponent = more + other by omega, zpow_add₀ (two_ne_zero' ℚ), zpow_natCast, ← mul_assoc,
        mul_left_inj' positive] at same
      exact_mod_cast same
    rw [← whole]
    exact (Dvd.intro_left multiple rfl).mul_right _

/-! ## Doubles near an integer -/

/-- A double that is within one part in `2 ^ 53` of an integer with 52 significant bits is that integer. -/
theorem abs_eq_of_near {value : Float} {number : ℚ} {digits shift : Nat} (isNumber : exactValue value = some number)
    (small : digits < 2 ^ 52) (near : |(|number| - ((digits * 2 ^ shift : ℕ) : ℚ))| * 2 ^ 53 ≤ |number|) :
    |number| = ((digits * 2 ^ shift : ℕ) : ℚ) := by
  rcases eq_or_ne number 0 with rfl | nonzero
  · rw [abs_zero, zero_sub, abs_neg] at near
    have zero := abs_nonpos_iff.mp (nonpos_of_mul_nonpos_left near (by positivity))
    rw [abs_zero, zero]
  obtain ⟨sign, mantissa, exponent, positive, parts, same⟩ := finite_of_nonzero isNumber nonzero
  have canonical : Canonical value.toModel.unpack := canonical_unpack _
  rw [parts] at canonical
  obtain ⟨bounded, -, -, normal⟩ := canonical
  have magnitude : |number| = mantissa * 2 ^ exponent := by
    rw [same, sign_apply_abs, abs_of_pos (value_positive positive)]
  rw [magnitude] at near ⊢
  have power : (0 : ℚ) < 2 ^ exponent := by positivity
  have most : (mantissa : ℚ) < 2 ^ 53 := by exact_mod_cast bounded
  -- the distance is less than a unit in the last place
  have unit : |(mantissa : ℚ) * 2 ^ exponent - ((digits * 2 ^ shift : ℕ) : ℚ)| < 2 ^ exponent := by
    have step := near.trans_lt (mul_lt_mul_of_pos_right most power)
    rw [mul_comm] at step
    exact lt_of_mul_lt_mul_left step (by positivity)
  rcases le_or_gt exponent (shift : ℤ) with within | beyond
  · obtain ⟨more, moreEq⟩ := Int.eq_ofNat_of_zero_le (sub_nonneg.mpr within)
    have scaled : ((digits * 2 ^ shift : ℕ) : ℚ) = ((digits * 2 ^ more : ℕ) : ℚ) * 2 ^ exponent := by
      have split : (2 : ℚ) ^ shift = 2 ^ more * 2 ^ exponent := by
        rw [← zpow_natCast, ← zpow_natCast, ← zpow_add₀ (two_ne_zero' ℚ)]
        congr 1
        omega
      push_cast
      rw [split, mul_assoc]
    rw [scaled, ← sub_mul, abs_mul, abs_of_pos power] at unit
    have close : |((mantissa : ℤ) : ℚ) - ((digits * 2 ^ more : ℕ) : ℤ)| < 1 := by
      have := (mul_lt_iff_lt_one_left power).mp unit
      simpa using this
    have whole : (mantissa : ℤ) = ((digits * 2 ^ more : ℕ) : ℤ) := by
      have small : |(mantissa : ℤ) - ((digits * 2 ^ more : ℕ) : ℤ)| < 1 := by exact_mod_cast close
      exact sub_eq_zero.mp (Int.abs_lt_one_iff.mp small)
    rw [scaled]
    congr 1
    exact_mod_cast whole
  · have wide : 2 ^ 52 ≤ mantissa := by
      rcases normal with wide | least
      · exact wide
      · omega
    have least : (2 : ℚ) ^ 52 ≤ mantissa := by exact_mod_cast wide
    have below := (abs_lt.mp unit).2
    have twice : (2 : ℚ) ^ shift * 2 ≤ 2 ^ exponent := by
      rw [← zpow_natCast, ← zpow_add_one₀ (two_ne_zero' ℚ)]
      exact zpow_le_zpow_right₀ (by norm_num) (by omega)
    have few : (digits : ℚ) ≤ 2 ^ 52 - 1 := by
      have : digits + 1 ≤ 2 ^ 52 := small
      have : (digits : ℚ) + 1 ≤ 2 ^ 52 := by exact_mod_cast this
      linarith
    have shiftPositive : (0 : ℚ) < 2 ^ shift := by positivity
    have product : ((digits * 2 ^ shift : ℕ) : ℚ) ≤ (2 ^ 52 - 1) * 2 ^ shift := by
      push_cast
      exact mul_le_mul_of_nonneg_right few shiftPositive.le
    have lower : (2 : ℚ) ^ 52 * 2 ^ exponent ≤ mantissa * 2 ^ exponent := mul_le_mul_of_nonneg_right least power.le
    linarith

end KernelLake.Library.DoubleBounds
