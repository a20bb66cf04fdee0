import KernelLake.Library.DoubleSigns
import KernelLake.Library.DoubleValues

/-!
How far a rounded double is from the number it stands for.

The rounded parts of a positive integer are within half a unit in the last place of it, and exactly it when
53 bits are enough. A product of doubles is rounded the same way, from the product of the mantissas.
-/

namespace KernelLake.Library.DoubleRounding

open KernelLake.Library.Doubles KernelLake.Library.DoubleValues
open Float.Model (UnpackedFloat Format totalExponent)
open Float.Model.UnpackedFloat

/-! ## Rounding a shifted mantissa -/

theorem nearestShift_error (shift value : Nat) :
    2 * (nearestShift shift value * 2 ^ shift) ≤ 2 * value + 2 ^ shift ∧
      2 * value ≤ 2 * (nearestShift shift value * 2 ^ shift) + 2 ^ shift := by
  have positive : 0 < 2 ^ shift := Nat.two_pow_pos shift
  have parts := Nat.div_add_mod value (2 ^ shift)
  have small := Nat.mod_lt value positive
  rw [mul_comm] at parts
  unfold nearestShift
  simp only
  split
  · rw [Nat.add_mul, Nat.one_mul]
    generalize value / 2 ^ shift * 2 ^ shift = multiple at *
    omega
  · generalize value / 2 ^ shift * 2 ^ shift = multiple at *
    omega

theorem nearestShift_exact {shift value : Nat} (divides : 2 ^ shift ∣ value) :
    nearestShift shift value * 2 ^ shift = value := by
  have remainder := Nat.mod_eq_zero_of_dvd divides
  have positive : 0 < 2 ^ shift := Nat.two_pow_pos shift
  unfold nearestShift
  simp only [remainder, Nat.mul_zero, Nat.not_lt_zero, positive.ne, false_and, or_self, if_false]
  exact Nat.div_mul_cancel divides

/-! ## The value of rounded parts -/

/-- The number that the parts of a positive integer stand for. -/
def nearest (value : Nat) : ℚ :=
  (normalParts value).2 * 2 ^ (normalParts value).1

theorem normalParts_exponent (value : Nat) :
    (value.log2 : ℤ) - 52 ≤ (normalParts value).1 ∧ (normalParts value).1 ≤ (value.log2 : ℤ) - 51 := by
  unfold normalParts
  split
  · simp only
    omega
  · simp only
    split
    · simp only
      omega
    · simp only
      omega

theorem nearest_narrow {value : Nat} (narrow : value.log2 ≤ 52) : nearest value = value := by
  have exponent : ((value.log2 : ℤ) - 52) = -((52 - value.log2 : ℕ) : ℤ) := by omega
  rw [nearest, normalParts, if_pos narrow, exponent, Nat.cast_mul, Nat.cast_pow, zpow_neg, zpow_natCast]
  field_simp
  norm_num

theorem nearest_wide {value : Nat} (wide : 52 ≤ value.log2) :
    nearest value = ((nearestShift (value.log2 - 52) value * 2 ^ (value.log2 - 52) : ℕ) : ℚ) := by
  rcases Nat.eq_or_lt_of_le wide with exact | wide
  · rw [nearest_narrow exact.ge, nearestShift_exact]
    rw [← exact, Nat.sub_self, Nat.pow_zero]
    exact one_dvd value
  · have exponent : (value.log2 : ℤ) - 52 = ((value.log2 - 52 : ℕ) : ℤ) := by omega
    have next : (value.log2 : ℤ) - 51 = ((value.log2 - 52 : ℕ) : ℤ) + 1 := by omega
    have bounds := nearestShift_bounds wide
    rw [nearest, normalParts, if_neg (not_le.mpr wide)]
    simp only
    split
    · simp only [exponent, zpow_natCast]
      push_cast
      rfl
    · rename_i overflow
      have full : nearestShift (value.log2 - 52) value = 2 ^ 53 := by omega
      simp only [full, next, zpow_add₀ (two_ne_zero' ℚ), zpow_natCast]
      push_cast
      ring

/-- Rounding moves an integer by at most half a unit in the last place. -/
theorem nearest_error (value : Nat) :
    |nearest value - value| ≤ 2 ^ ((value.log2 : ℤ) - 53) := by
  rcases Nat.le_total value.log2 52 with narrow | wide
  · rw [nearest_narrow narrow, sub_self, abs_zero]
    positivity
  · have error := nearestShift_error (value.log2 - 52) value
    have exponent : (value.log2 : ℤ) - 53 = ((value.log2 - 52 : ℕ) : ℤ) - 1 := by omega
    have above : 2 * ((nearestShift (value.log2 - 52) value * 2 ^ (value.log2 - 52) : ℕ) : ℚ) ≤
        2 * (value : ℚ) + 2 ^ (value.log2 - 52) := by exact_mod_cast error.1
    have below : 2 * (value : ℚ) ≤
        2 * ((nearestShift (value.log2 - 52) value * 2 ^ (value.log2 - 52) : ℕ) : ℚ) +
          2 ^ (value.log2 - 52) := by exact_mod_cast error.2
    rw [nearest_wide wide, exponent, zpow_sub₀ (two_ne_zero' ℚ), zpow_natCast, zpow_one, abs_le]
    constructor <;> linarith

/-- An integer with at most 53 significant bits is not rounded. -/
theorem nearest_exact {digits shift : Nat} (small : digits < 2 ^ 53) :
    nearest (digits * 2 ^ shift) = ((digits * 2 ^ shift : ℕ) : ℚ) := by
  rcases Nat.le_total (digits * 2 ^ shift).log2 52 with narrow | wide
  · exact nearest_narrow narrow
  · have nonzero : digits * 2 ^ shift ≠ 0 := by
      intro zero
      rw [zero] at wide
      exact absurd wide (by decide)
    have width : (digits * 2 ^ shift).log2 < 53 + shift := by
      apply (Nat.log2_lt nonzero).mpr
      rw [Nat.pow_add]
      exact Nat.mul_lt_mul_of_pos_right small (Nat.two_pow_pos shift)
    rw [nearest_wide wide, nearestShift_exact]
    exact (pow_dvd_pow 2 (by omega)).trans (Nat.dvd_mul_left _ _)

theorem nearest_ge_power {value : Nat} (positive : 0 < value) : (2 : ℚ) ^ value.log2 ≤ nearest value := by
  rcases Nat.le_total value.log2 52 with narrow | wide
  · rw [nearest_narrow narrow]
    exact_mod_cast (log2_bounds positive).1
  · have divides : 2 ^ (value.log2 - 52) ∣ 2 ^ value.log2 := pow_dvd_pow 2 (by omega)
    have rounded := Nat.mul_le_mul_right (2 ^ (value.log2 - 52))
      (nearestShift_mono (value.log2 - 52) (log2_bounds positive).1)
    rw [nearestShift_exact divides] at rounded
    rw [nearest_wide wide]
    exact_mod_cast rounded

/-- Rounding makes a positive integer smaller by one part in `2 ^ 53` at most. -/
theorem le_nearest {value : Nat} (positive : 0 < value) :
    (value : ℚ) ≤ nearest value * (1 + 1 / 2 ^ 53) := by
  have error := (abs_le.mp (nearest_error value)).1
  have lower := nearest_ge_power positive
  rw [zpow_sub₀ (two_ne_zero' ℚ), zpow_natCast] at error
  have unit : (2 : ℚ) ^ (53 : ℤ) = 2 ^ 53 := by norm_num
  rw [unit] at error
  have part : (2 : ℚ) ^ value.log2 / 2 ^ 53 ≤ nearest value / 2 ^ 53 := by gcongr
  linarith [mul_add (nearest value) 1 (1 / 2 ^ 53), mul_one_div (nearest value) (2 ^ 53)]

theorem nearest_le {value : Nat} (positive : 0 < value) :
    nearest value ≤ value * (1 + 1 / 2 ^ 53) := by
  have error := (abs_le.mp (nearest_error value)).2
  have lower : (2 : ℚ) ^ value.log2 ≤ value := by exact_mod_cast (log2_bounds positive).1
  rw [zpow_sub₀ (two_ne_zero' ℚ), zpow_natCast] at error
  have unit : (2 : ℚ) ^ (53 : ℤ) = 2 ^ 53 := by norm_num
  rw [unit] at error
  have part : (2 : ℚ) ^ value.log2 / 2 ^ 53 ≤ value / 2 ^ 53 := by gcongr
  linarith [mul_add (value : ℚ) 1 (1 / 2 ^ 53), mul_one_div (value : ℚ) (2 ^ 53)]

/-! ## Products -/

/-- A mantissa of 53 bits or more is rounded like an integer, at any exponent of a normal number. -/
theorem roundWithAccuracy_wide {mantissa : Nat} {exponent : ℤ} (wide : 52 ≤ mantissa.log2)
    (range : -1074 ≤ (mantissa.log2 : ℤ) - 52 + exponent) (sign : Sign) :
    ∃ nonzero, roundWithAccuracy Format.binary64 sign mantissa exponent .exact =
      .finite sign (normalParts mantissa).2 ((normalParts mantissa).1 + exponent) nonzero := by
  have positive : 0 < mantissa := by
    by_contra zero
    rw [show mantissa = 0 by omega] at wide
    exact absurd wide (by decide)
  obtain ⟨lower, upper⟩ := normalParts_bounds positive
  refine ⟨by omega, ?_⟩
  have shifted : exponent + ((mantissa.log2 - 52 : ℕ) : ℤ) = (mantissa.log2 : ℤ) - 52 + exponent := by omega
  simp only [roundWithAccuracy, shiftToTargetExponent_normal range, roundedMantissa_shiftRight, shifted]
  rcases Nat.eq_or_lt_of_le wide with width | wide
  · have parts : normalParts mantissa = (0, mantissa) := by
      rw [normalParts, if_pos width.ge, ← width]
      simp
    have whole : nearestShift 0 mantissa = mantissa := by
      simpa using @nearestShift_exact 0 mantissa (one_dvd _)
    rw [parts] at lower upper
    have normal := @shiftToTargetExponent_of_normal mantissa exponent lower upper (by omega)
    simp [whole, parts, normal, ← width, positive.ne']
  · have bounds := nearestShift_bounds wide
    by_cases small : nearestShift (mantissa.log2 - 52) mantissa < 2 ^ 53
    · have parts : normalParts mantissa =
          ((mantissa.log2 : ℤ) - 52, nearestShift (mantissa.log2 - 52) mantissa) := by
        rw [normalParts, if_neg (not_le.mpr wide)]
        exact if_pos small
      have nonzero : nearestShift (mantissa.log2 - 52) mantissa ≠ 0 := by omega
      simp [shiftToTargetExponent_of_normal bounds.1 small range, parts, nonzero]
    · have parts : normalParts mantissa = ((mantissa.log2 : ℤ) - 51, 2 ^ 52) := by
        rw [normalParts, if_neg (not_le.mpr wide)]
        exact if_neg small
      have power : nearestShift (mantissa.log2 - 52) mantissa = 2 ^ 53 := by omega
      simp only [power, shiftToTargetExponent_of_power range, parts]
      simp
      omega

/-- The mantissa and the exponent of a double. -/
def Canonical : UnpackedFloat → Prop
  | .finite _ mantissa exponent _ =>
    mantissa < 2 ^ 53 ∧ -1074 ≤ exponent ∧ exponent ≤ 971 ∧ (2 ^ 52 ≤ mantissa ∨ exponent = -1074)
  | _ => True

theorem canonical_unpack (bits : BitVec Format.binary64.numBits) :
    Canonical (UnpackedFloat.unpack Format.binary64 bits) := by
  have range : (unpackExponent bits).toNat < 2 ^ 11 := (unpackExponent bits).isLt
  have mantissaRange : (unpackMantissa bits).toNat < 2 ^ 52 := (unpackMantissa bits).isLt
  unfold UnpackedFloat.unpack
  simp only
  split
  · split <;> exact trivial
  · rename_i finite
    split
    · rename_i subnormal
      split
      · exact trivial
      · simp only [Canonical, subnormal, Format.exponentBias, Format.binary64]
        norm_num
        omega
    · rename_i normal
      have notZero : (unpackExponent bits).toNat ≠ 0 := by
        intro zero
        exact normal (BitVec.eq_of_toNat_eq (by rw [zero]; rfl))
      have notMax : (unpackExponent bits).toNat ≠ 2047 := by
        intro largest
        exact finite (BitVec.eq_of_toNat_eq (by rw [largest]; rfl))
      have value : (1#1 ++ unpackMantissa bits).toNat = 2 ^ 52 + (unpackMantissa bits).toNat := by
        rw [BitVec.toNat_append, ← Nat.shiftLeft_add_eq_or_of_lt (unpackMantissa bits).isLt, Nat.shiftLeft_eq]
        rfl
      simp only [Canonical, value, Format.exponentBias, Format.binary64]
      norm_num
      omega

/-! ## Order -/

/-- Mantissas of 53 bits: the number with the greater exponent is the greater one. -/
theorem scaled_lt {mantissa other : Nat} {exponent next : ℤ} (bounded : mantissa < 2 ^ 53)
    (range : -1074 ≤ exponent) (normal : 2 ^ 52 ≤ other ∨ next = -1074)
    (below : exponent < next ∨ exponent = next ∧ mantissa < other) :
    (mantissa : ℚ) * 2 ^ exponent < other * 2 ^ next := by
  rcases below with below | ⟨rfl, below⟩
  · have wide : 2 ^ 52 ≤ other := by
      rcases normal with wide | smallest
      · exact wide
      · omega
    have least : (2 : ℚ) ^ 52 ≤ other := by exact_mod_cast wide
    have most : (mantissa : ℚ) < 2 ^ 53 := by exact_mod_cast bounded
    have power : (2 : ℚ) ^ exponent * 2 ≤ 2 ^ next := by
      rw [← zpow_add_one₀ (two_ne_zero' ℚ)]
      exact zpow_le_zpow_right₀ (by norm_num) (by omega)
    have positive : (0 : ℚ) < 2 ^ exponent := by positivity
    calc (mantissa : ℚ) * 2 ^ exponent < 2 ^ 53 * 2 ^ exponent := mul_lt_mul_of_pos_right most positive
      _ = 2 ^ 52 * (2 ^ exponent * 2) := by ring
      _ ≤ other * 2 ^ next := mul_le_mul least power (by positivity) (by positivity)
  · have positive : (0 : ℚ) < 2 ^ exponent := by positivity
    have below : (mantissa : ℚ) < other := by exact_mod_cast below
    exact mul_lt_mul_of_pos_right below positive

theorem value_positive {mantissa : Nat} {exponent : ℤ} (nonzero : 0 < mantissa) :
    (0 : ℚ) < (mantissa : ℚ) * 2 ^ exponent := by
  positivity

/-- A rank below another stands for a number below the other's. -/
theorem value_lt_of_rank_lt {left right : UnpackedFloat} {first second : ℤ ×ₗ ℤ ×ₗ ℤ} {x y : ℚ}
    (leftCanonical : Canonical left) (rightCanonical : Canonical right)
    (leftRank : unpackedRank left = some first) (rightRank : unpackedRank right = some second)
    (leftValue : unpackedValue left = some x) (rightValue : unpackedValue right = some y)
    (below : first < second) : x < y := by
  have lexLt (a b : ℤ) (u v : ℤ ×ₗ ℤ) : toLex (a, u) < toLex (b, v) ↔ a < b ∨ (a = b ∧ u < v) :=
    Prod.Lex.toLex_lt_toLex
  have lexLt' (a b u v : ℤ) : toLex (a, u) < toLex (b, v) ↔ a < b ∨ (a = b ∧ u < v) :=
    Prod.Lex.toLex_lt_toLex
  cases left with
  | notANumber => cases leftValue
  | infinity => cases leftValue
  | zero =>
    obtain rfl := Option.some.inj leftValue
    obtain rfl := Option.some.inj leftRank
    cases right with
    | notANumber => cases rightValue
    | infinity => cases rightValue
    | zero =>
      obtain rfl := Option.some.inj rightRank
      exact absurd below (lt_irrefl _)
    | finite sign mantissa exponent nonzero =>
      obtain rfl := Option.some.inj rightValue
      cases sign with
      | negative =>
        obtain rfl := Option.some.inj rightRank
        simp [lexLt] at below
      | positive => simpa [Sign.apply] using @value_positive mantissa exponent nonzero
  | finite sign mantissa exponent nonzero =>
    obtain rfl := Option.some.inj leftValue
    cases right with
    | notANumber => cases rightValue
    | infinity => cases rightValue
    | zero =>
      obtain rfl := Option.some.inj rightValue
      obtain rfl := Option.some.inj rightRank
      cases sign with
      | negative => simpa [Sign.apply] using @value_positive mantissa exponent nonzero
      | positive =>
        obtain rfl := Option.some.inj leftRank
        simp [lexLt] at below
    | finite otherSign other otherExponent otherNonzero =>
      obtain rfl := Option.some.inj rightValue
      have leftPositive := @value_positive mantissa exponent nonzero
      have rightPositive := @value_positive other otherExponent otherNonzero
      cases sign with
      | negative =>
        obtain rfl := Option.some.inj leftRank
        cases otherSign with
        | negative =>
          obtain rfl := Option.some.inj rightRank
          simp only [lexLt, lexLt', lt_irrefl, false_or, true_and] at below
          have magnitudes := @scaled_lt other mantissa otherExponent exponent rightCanonical.1
            rightCanonical.2.1 leftCanonical.2.2.2 (by omega)
          simp only [Sign.apply, Int.cast_neg, Int.cast_natCast]
          linarith
        | positive =>
          simp only [Sign.apply, Int.cast_neg, Int.cast_natCast]
          linarith
      | positive =>
        obtain rfl := Option.some.inj leftRank
        cases otherSign with
        | negative =>
          obtain rfl := Option.some.inj rightRank
          simp [lexLt] at below
        | positive =>
          obtain rfl := Option.some.inj rightRank
          simp only [lexLt, lexLt', lt_irrefl, false_or, true_and] at below
          have magnitudes := @scaled_lt mantissa other exponent otherExponent leftCanonical.1
            leftCanonical.2.1 rightCanonical.2.2.2 (by omega)
          simpa only [Sign.apply, Int.cast_natCast] using magnitudes

/-- Numbers of one rank are one number. -/
theorem value_eq_of_rank_eq {left right : UnpackedFloat} {x y : ℚ}
    (leftValue : unpackedValue left = some x) (rightValue : unpackedValue right = some y)
    (same : unpackedRank left = unpackedRank right) : x = y := by
  cases left with
  | notANumber => cases leftValue
  | infinity => cases leftValue
  | zero =>
    obtain rfl := Option.some.inj leftValue
    cases right with
    | notANumber => cases rightValue
    | infinity => cases rightValue
    | zero => exact Option.some.inj rightValue
    | finite sign mantissa exponent nonzero => cases sign <;> cases Option.some.inj same
  | finite sign mantissa exponent nonzero =>
    obtain rfl := Option.some.inj leftValue
    cases right with
    | notANumber => cases rightValue
    | infinity => cases rightValue
    | zero => cases sign <;> cases Option.some.inj same
    | finite otherSign other otherExponent otherNonzero =>
      obtain rfl := Option.some.inj rightValue
      cases sign <;> cases otherSign
      · obtain ⟨rfl, rfl⟩ : exponent = otherExponent ∧ mantissa = other := by
          simpa [unpackedRank] using same
        rfl
      · cases Option.some.inj same
      · cases Option.some.inj same
      · obtain ⟨rfl, rfl⟩ : exponent = otherExponent ∧ mantissa = other := by
          simpa [unpackedRank] using same
        rfl

theorem rank_of_value {unpacked : UnpackedFloat} {x : ℚ} (value : unpackedValue unpacked = some x) :
    ∃ order, unpackedRank unpacked = some order := by
  cases unpacked with
  | notANumber => cases value
  | infinity => cases value
  | zero => exact ⟨_, rfl⟩
  | finite sign => cases sign <;> exact ⟨_, rfl⟩

/-- Comparing two finite doubles compares the numbers they stand for. -/
theorem compareDoubles_exact {left right : Float} {x y : ℚ} (leftValue : exactValue left = some x)
    (rightValue : exactValue right = some y) : compareDoubles left right = some (compare x y) := by
  obtain ⟨first, firstRank⟩ := rank_of_value leftValue
  obtain ⟨second, secondRank⟩ := rank_of_value rightValue
  have leftCanonical : Canonical left.toModel.unpack := canonical_unpack _
  have rightCanonical : Canonical right.toModel.unpack := canonical_unpack _
  rw [compareDoubles_of_ranks firstRank secondRank]
  rcases lt_trichotomy first second with below | rfl | above
  · have less := value_lt_of_rank_lt leftCanonical rightCanonical firstRank secondRank leftValue rightValue below
    rw [compare_lt_iff_lt.mpr below, compare_lt_iff_lt.mpr less]
  · have same := value_eq_of_rank_eq leftValue rightValue (firstRank.trans secondRank.symm)
    rw [compare_eq_iff_eq.mpr rfl, compare_eq_iff_eq.mpr same]
  · have greater := value_lt_of_rank_lt rightCanonical leftCanonical secondRank firstRank rightValue leftValue above
    rw [compare_gt_iff_gt.mpr above, compare_gt_iff_gt.mpr greater]

end KernelLake.Library.DoubleRounding
