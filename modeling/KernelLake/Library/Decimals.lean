import Mathlib.Algebra.Order.Field.Rat
import Mathlib.Algebra.Order.Ring.Abs
import Mathlib.Data.Rat.Cast.Order
import Mathlib.Tactic.Linarith

/-!
Decimal numbers of fixed precision and scale, as sets of rationals.

A decimal is a whole number of units of ten to the minus `scale`; its precision bounds the number of
units. One decimal format contains another exactly when it has at least as many digits on either side
of the point.
-/

namespace KernelLake.Library.Decimals

/-- The rational that a number of units stands for. -/
def scaled (units scale : ℤ) : ℚ := units * (10 : ℚ) ^ (-scale)

/-- The numbers with `precision` digits, `scale` of them after the point. -/
def decimals (precision scale : ℤ) : Set ℚ :=
  {number | ∃ units : ℤ, number = scaled units scale ∧ |(units : ℚ)| < (10 : ℚ) ^ precision}

theorem ten_zpow_pos (exponent : ℤ) : (0 : ℚ) < 10 ^ exponent :=
  zpow_pos (by norm_num) exponent

theorem ten_zpow_le {low high : ℤ} (ordered : low ≤ high) : (10 : ℚ) ^ low ≤ 10 ^ high :=
  zpow_le_zpow_right₀ (by norm_num) ordered

theorem ten_zpow_lt {low high : ℤ} (ordered : low < high) : (10 : ℚ) ^ low < 10 ^ high :=
  zpow_lt_zpow_right₀ (by norm_num) ordered

theorem ten_zpow_add (first second : ℤ) : (10 : ℚ) ^ (first + second) = 10 ^ first * 10 ^ second :=
  zpow_add₀ (by norm_num) first second

/-- A power of ten with an exponent that is not negative is a whole number. -/
theorem exists_units {exponent : ℤ} (nonnegative : 0 ≤ exponent) :
    ((10 ^ exponent.toNat : ℤ) : ℚ) = 10 ^ exponent := by
  obtain ⟨digits, rfl⟩ := Int.eq_ofNat_of_zero_le nonnegative
  simp

/-- At a finer scale the same number has more units. -/
theorem scaled_rescale (units : ℤ) {scale finer : ℤ} (ordered : scale ≤ finer) :
    scaled units scale = scaled (units * 10 ^ (finer - scale).toNat) finer := by
  have whole := exists_units (sub_nonneg.mpr ordered)
  have expanded : (10 : ℚ) ^ (-scale) = 10 ^ (finer - scale) * 10 ^ (-finer) := by
    rw [← ten_zpow_add]
    congr 1
    omega
  rw [scaled, scaled, Int.cast_mul, whole, expanded, mul_assoc]

theorem eq_zero_of_abs_lt_one {units : ℤ} (small : |(units : ℚ)| < 1) : units = 0 := by
  have bound : |units| < 1 := by exact_mod_cast small
  exact Int.abs_lt_one_iff.mp bound

/-- The units of a number at another scale. -/
theorem units_of_scaled_eq {units other scale finer : ℤ} (same : scaled units scale = scaled other finer) :
    (other : ℚ) = units * 10 ^ (finer - scale) := by
  have shifted := congrArg (· * (10 : ℚ) ^ finer) same
  simp only [scaled, mul_assoc, ← ten_zpow_add, neg_add_cancel, zpow_zero, mul_one] at shifted
  rw [← shifted]
  congr 2
  omega

theorem decimals_subset {precision scale other finer : ℤ} (digits : scale ≤ finer)
    (whole : precision - scale ≤ other - finer) : decimals precision scale ⊆ decimals other finer := by
  rintro number ⟨units, rfl, bound⟩
  refine ⟨units * 10 ^ (finer - scale).toNat, scaled_rescale units digits, ?_⟩
  have factor := exists_units (sub_nonneg.mpr digits)
  calc |((units * 10 ^ (finer - scale).toNat : ℤ) : ℚ)|
      = |(units : ℚ)| * 10 ^ (finer - scale) := by
        rw [Int.cast_mul, factor, abs_mul, abs_of_pos (ten_zpow_pos _)]
    _ < 10 ^ precision * 10 ^ (finer - scale) := mul_lt_mul_of_pos_right bound (ten_zpow_pos _)
    _ = 10 ^ (precision + (finer - scale)) := (ten_zpow_add _ _).symm
    _ ≤ 10 ^ other := ten_zpow_le (by omega)

/-- One unit of the coarser scale has to be a whole number of units. -/
theorem scale_le_of_subset {precision scale other finer : ℤ} (nonempty : 0 < precision)
    (included : decimals precision scale ⊆ decimals other finer) : scale ≤ finer := by
  have one : scaled 1 scale ∈ decimals precision scale := by
    refine ⟨1, rfl, ?_⟩
    rw [Int.cast_one, abs_one]
    exact one_lt_zpow₀ (by norm_num) nonempty
  obtain ⟨units, same, _⟩ := included one
  have value := units_of_scaled_eq same
  rw [Int.cast_one, one_mul] at value
  by_contra coarser
  have below : (units : ℚ) < 1 := by
    rw [value, ← zpow_zero (10 : ℚ)]
    exact ten_zpow_lt (by omega)
  have above : (0 : ℚ) < units := by
    rw [value]
    exact ten_zpow_pos _
  have positive : 0 < units := by exact_mod_cast above
  have small : units < 1 := by exact_mod_cast below
  omega

/-- The greatest number of a format has to have few enough digits before the point. -/
theorem whole_le_of_subset {precision scale other finer : ℤ} (nonempty : 0 < precision)
    (included : decimals precision scale ⊆ decimals other finer) :
    precision - scale ≤ other - finer := by
  have digits := scale_le_of_subset nonempty included
  have units := exists_units nonempty.le
  have large : (1 : ℚ) ≤ 10 ^ precision := one_le_zpow₀ (by norm_num) nonempty.le
  have greatest : scaled (10 ^ precision.toNat - 1) scale ∈ decimals precision scale := by
    refine ⟨_, rfl, ?_⟩
    rw [Int.cast_sub, units, Int.cast_one, abs_of_nonneg (by linarith)]
    linarith
  obtain ⟨count, same, bound⟩ := included greatest
  have value := units_of_scaled_eq same
  rw [Int.cast_sub, units, Int.cast_one, sub_mul, one_mul, ← ten_zpow_add] at value
  by_contra tooMany
  have upper := lt_of_le_of_lt (le_abs_self (count : ℚ)) bound
  have power : (10 : ℚ) ^ (precision + (finer - scale)) =
      10 * 10 ^ (precision + (finer - scale) - 1) := by
    rw [← zpow_one_add₀ (by norm_num)]
    congr 1
    omega
  have lower : (10 : ℚ) ^ (finer - scale) ≤ 10 ^ (precision + (finer - scale) - 1) := ten_zpow_le (by omega)
  have beyond : (10 : ℚ) ^ other ≤ 10 ^ (precision + (finer - scale) - 1) := ten_zpow_le (by omega)
  have positive := ten_zpow_pos (precision + (finer - scale) - 1)
  rw [value, power] at upper
  linarith

/-- One format contains another exactly when it has as many digits on either side of the point. -/
theorem decimals_subset_iff {precision scale other finer : ℤ} (nonempty : 0 < precision) :
    decimals precision scale ⊆ decimals other finer ↔ scale ≤ finer ∧ precision - scale ≤ other - finer := by
  constructor
  · intro included
    exact ⟨scale_le_of_subset nonempty included, whole_le_of_subset nonempty included⟩
  · rintro ⟨digits, whole⟩
    exact decimals_subset digits whole

/-- A format without digits has only zero. -/
theorem decimals_of_empty {precision : ℤ} (empty : precision ≤ 0) (scale other finer : ℤ) :
    decimals precision scale ⊆ decimals other finer := by
  rintro number ⟨units, rfl, bound⟩
  have small : |(units : ℚ)| < 1 := lt_of_lt_of_le bound (by
    rw [← zpow_zero (10 : ℚ)]
    exact ten_zpow_le empty)
  obtain rfl := eq_zero_of_abs_lt_one small
  refine ⟨0, by simp [scaled], ?_⟩
  rw [Int.cast_zero, abs_zero]
  exact ten_zpow_pos other

end KernelLake.Library.Decimals
