import KernelLake.Library.Doubles
import Mathlib

/-!
Conversion of integers to doubles is monotone.

A positive integer below `2 ^ 1000` converts to a normal number: a mantissa of 53 bits, rounded to
nearest with ties to even, and an exponent. `normalParts` is that pair in closed form; the round
trip through the packed representation shows that `ofInteger` produces it, and the order of the pairs
is the order of the integers up to rounding.
-/

namespace KernelLake.Library.Doubles

open Float.Model (UnpackedFloat Format totalExponent)
open Float.Model.UnpackedFloat

/-! ## Rounding a shifted mantissa -/

/-- `value / 2 ^ shift`, rounded to nearest with ties to even. -/
def nearestShift (shift value : Nat) : Nat :=
  let quotient := value / 2 ^ shift
  let twice := 2 * (value % 2 ^ shift)
  if 2 ^ shift < twice ∨ (twice = 2 ^ shift ∧ quotient % 2 = 1) then quotient + 1 else quotient

/-- After `shift` right shifts the residual bits compare the remainder with one half. -/
theorem shiftRight_exact (value shift : Nat) :
    (ExtendedMantissa.mk value false false) >>> shift =
      ExtendedMantissa.mk (value / 2 ^ shift)
        (decide (2 ^ shift ≤ 2 * (value % 2 ^ shift)))
        (decide (value % 2 ^ shift ≠ 0 ∧ 2 * (value % 2 ^ shift) ≠ 2 ^ shift)) := by
  change Nat.repeat ExtendedMantissa.shiftRightOne shift (ExtendedMantissa.mk value false false) = _
  induction shift with
  | zero => simp [Nat.repeat, Nat.mod_one]
  | succ shift hypothesis =>
    rw [Nat.repeat, hypothesis]
    have positive : 0 < 2 ^ shift := Nat.two_pow_pos shift
    have remainder := Nat.mod_pow_succ (b := 2) (k := shift) (x := value)
    have small := Nat.mod_lt value positive
    have quotient : value / 2 ^ (shift + 1) = value / 2 ^ shift / 2 := by
      rw [Nat.pow_succ, Nat.div_div_eq_div_mul]
    have double : 2 ^ (shift + 1) = 2 * 2 ^ shift := by ring
    rw [ExtendedMantissa.shiftRightOne]
    simp only [quotient, ExtendedMantissa.mk.injEq, true_and]
    rw [remainder, double]
    generalize value % 2 ^ shift = low at small ⊢
    generalize value / 2 ^ shift = high
    generalize 2 ^ shift = power at positive small ⊢
    rcases Nat.mod_two_eq_zero_or_one high with even | odd
    · rw [even]
      constructor
      · simp
        omega
      · rw [Bool.eq_iff_iff]
        simp
        omega
    · rw [odd]
      constructor
      · simp
      · rw [Bool.eq_iff_iff]
        simp
        omega

theorem roundedMantissa_shiftRight (value shift : Nat) :
    ((ExtendedMantissa.mk value false false) >>> shift).roundedMantissa = nearestShift shift value := by
  rw [shiftRight_exact]
  have positive : 0 < 2 ^ shift := Nat.two_pow_pos shift
  unfold nearestShift
  generalize value % 2 ^ shift = low
  generalize value / 2 ^ shift = high
  generalize 2 ^ shift = power at positive ⊢
  by_cases half : power ≤ 2 * low
  · by_cases tie : 2 * low = power
    · have nonzero : low ≠ 0 := by omega
      simp [ExtendedMantissa.roundedMantissa, ExtendedMantissa.accuracy, Accuracy.roundToNearestEven,
        tie]
      split <;> omega
    · have above : power < 2 * low := by omega
      have nonzero : low ≠ 0 := by omega
      simp [ExtendedMantissa.roundedMantissa, ExtendedMantissa.accuracy, Accuracy.roundToNearestEven,
        half, tie, above, nonzero]
  · have below : ¬ power < 2 * low := by omega
    have tie : ¬ 2 * low = power := by omega
    by_cases zero : low = 0
    · simp [ExtendedMantissa.roundedMantissa, ExtendedMantissa.accuracy, Accuracy.roundToNearestEven,
        zero, positive.ne, positive.ne']
    · simp [ExtendedMantissa.roundedMantissa, ExtendedMantissa.accuracy, Accuracy.roundToNearestEven,
        half, below, tie, zero]

theorem nearestShift_mono (shift : Nat) {first second : Nat} (le : first ≤ second) :
    nearestShift shift first ≤ nearestShift shift second := by
  have quotients : first / 2 ^ shift ≤ second / 2 ^ shift := Nat.div_le_div_right le
  have firstParts := Nat.div_add_mod first (2 ^ shift)
  have secondParts := Nat.div_add_mod second (2 ^ shift)
  unfold nearestShift
  by_cases same : first / 2 ^ shift = second / 2 ^ shift
  · have remainders : first % 2 ^ shift ≤ second % 2 ^ shift := by
      rw [same] at firstParts
      omega
    simp only [same]
    split <;> split <;> omega
  · simp only
    split <;> split <;> omega

/-! ## Normal numbers -/

/-- The exponent and the 53-bit mantissa of the double nearest to a positive integer. -/
def normalParts (value : Nat) : ℤ × ℕ :=
  if value.log2 ≤ 52 then ((value.log2 : ℤ) - 52, value * 2 ^ (52 - value.log2))
  else
    let rounded := nearestShift (value.log2 - 52) value
    if rounded < 2 ^ 53 then ((value.log2 : ℤ) - 52, rounded) else ((value.log2 : ℤ) - 51, 2 ^ 52)

theorem log2_bounds {value : Nat} (positive : 0 < value) :
    2 ^ value.log2 ≤ value ∧ value < 2 ^ (value.log2 + 1) :=
  ⟨Nat.log2_self_le positive.ne', Nat.lt_log2_self⟩

theorem log2_of_normal {mantissa : Nat} (lower : 2 ^ 52 ≤ mantissa) (upper : mantissa < 2 ^ 53) :
    mantissa.log2 = 52 := by
  have nonzero : mantissa ≠ 0 := by omega
  have below := (Nat.log2_lt nonzero).mpr upper
  have above := (Nat.le_log2 nonzero).mpr lower
  omega

/-- A wide integer shifted to 53 bits rounds to a mantissa, or to the next power of two. -/
theorem nearestShift_bounds {value : Nat} (wide : 52 < value.log2) :
    2 ^ 52 ≤ nearestShift (value.log2 - 52) value ∧ nearestShift (value.log2 - 52) value ≤ 2 ^ 53 := by
  have positive : 0 < value := by
    by_contra zero
    have : value = 0 := by omega
    simp [this] at wide
  obtain ⟨lower, upper⟩ := log2_bounds positive
  have split : value.log2 = 52 + (value.log2 - 52) := by omega
  have lowerQuotient : 2 ^ 52 ≤ value / 2 ^ (value.log2 - 52) := by
    rw [Nat.le_div_iff_mul_le (Nat.two_pow_pos _), ← Nat.pow_add, ← split]
    exact lower
  have upperQuotient : value / 2 ^ (value.log2 - 52) < 2 ^ 53 := by
    rw [Nat.div_lt_iff_lt_mul (Nat.two_pow_pos _), ← Nat.pow_add]
    rw [show 53 + (value.log2 - 52) = value.log2 + 1 by omega]
    exact upper
  unfold nearestShift
  simp only
  split <;> omega

theorem normalParts_bounds {value : Nat} (positive : 0 < value) :
    2 ^ 52 ≤ (normalParts value).2 ∧ (normalParts value).2 < 2 ^ 53 := by
  unfold normalParts
  split
  · rename_i narrow
    obtain ⟨lower, upper⟩ := log2_bounds positive
    have split : 2 ^ value.log2 * 2 ^ (52 - value.log2) = 2 ^ 52 := by
      rw [← Nat.pow_add]
      congr 1
      omega
    have splitUpper : 2 ^ (value.log2 + 1) * 2 ^ (52 - value.log2) = 2 ^ 53 := by
      rw [← Nat.pow_add]
      congr 1
      omega
    refine ⟨?_, ?_⟩
    · rw [← split]
      exact Nat.mul_le_mul_right _ lower
    · rw [← splitUpper]
      exact Nat.mul_lt_mul_of_pos_right upper (Nat.two_pow_pos _)
  · rename_i wide
    have bounds := nearestShift_bounds (by omega : 52 < value.log2)
    simp only
    split
    · rename_i small
      exact ⟨bounds.1, small⟩
    · exact ⟨le_refl _, Nat.pow_lt_pow_right (by decide) (by decide)⟩

/-- The order of integers is the order of their parts, up to rounding. -/
theorem normalParts_mono (first second : Nat) (positive : 0 < first) (le : first ≤ second) :
    (normalParts first).1 < (normalParts second).1 ∨
      ((normalParts first).1 = (normalParts second).1 ∧
        (normalParts first).2 ≤ (normalParts second).2) := by
  have firstBounds := normalParts_bounds positive
  have secondBounds := normalParts_bounds (lt_of_lt_of_le positive le)
  have widths : first.log2 ≤ second.log2 :=
    (Nat.le_log2 (by omega)).mpr ((log2_bounds positive).1.trans le)
  by_cases same : first.log2 = second.log2
  · unfold normalParts
    rw [same]
    split
    · exact .inr ⟨rfl, Nat.mul_le_mul_right _ le⟩
    · have rounded := nearestShift_mono (second.log2 - 52) le
      simp only
      split
      · split
        · exact .inr ⟨rfl, rounded⟩
        · exact .inl (by simp)
      · split
        · omega
        · exact .inr ⟨rfl, le_refl _⟩
  · have firstExponent : (normalParts first).1 = (first.log2 : ℤ) - 52 ∨
        ((normalParts first).1 = (first.log2 : ℤ) - 51 ∧ (normalParts first).2 = 2 ^ 52) := by
      unfold normalParts
      split
      · exact .inl rfl
      · simp only
        split
        · exact .inl rfl
        · exact .inr ⟨rfl, rfl⟩
    have secondExponent : (second.log2 : ℤ) - 52 ≤ (normalParts second).1 := by
      unfold normalParts
      split
      · exact le_refl _
      · simp only
        split
        · exact le_refl _
        · simp only
          omega
    omega

/-! ## Conversion -/

theorem targetExponent_normal (mantissa : Nat) (exponent : Int) (range : -1074 ≤ (mantissa.log2 : ℤ) - 52 + exponent) :
    Format.binary64.targetExponent (totalExponent mantissa exponent) =
      (mantissa.log2 : ℤ) - 52 + exponent := by
  unfold Format.targetExponent totalExponent Format.minExponent Format.mantissaBits
  norm_num
  omega

theorem shiftToTargetExponent_normal {mantissa : Nat} {exponent : Int}
    (range : -1074 ≤ (mantissa.log2 : ℤ) - 52 + exponent) :
    shiftToTargetExponent Format.binary64 mantissa exponent .exact =
      ((ExtendedMantissa.mk mantissa false false) >>> (mantissa.log2 - 52),
        exponent + ((mantissa.log2 - 52 : ℕ) : ℤ)) := by
  have amount : ((mantissa.log2 : ℤ) - 52 + exponent - exponent).toNat = mantissa.log2 - 52 := by omega
  simp only [shiftToTargetExponent, shiftToExponent, targetExponent_normal mantissa exponent range,
    amount, ExtendedMantissa.ofMantissaAndAccuracy]

/-- A mantissa of exactly 53 bits is left alone. -/
theorem shiftToTargetExponent_of_normal {mantissa : Nat} {exponent : Int}
    (lower : 2 ^ 52 ≤ mantissa) (upper : mantissa < 2 ^ 53) (range : -1074 ≤ exponent) :
    shiftToTargetExponent Format.binary64 mantissa exponent .exact =
      (ExtendedMantissa.mk mantissa false false, exponent) := by
  have width := log2_of_normal lower upper
  rw [shiftToTargetExponent_normal (by omega), width]
  simp [HShiftRight.hShiftRight, Nat.repeat]

theorem shiftToTargetExponent_of_power {exponent : Int} (range : -1074 ≤ exponent) :
    shiftToTargetExponent Format.binary64 (2 ^ 53) exponent .exact =
      (ExtendedMantissa.mk (2 ^ 52) false false, exponent + 1) := by
  have width : (2 ^ 53 : ℕ).log2 = 53 := Nat.log2_two_pow
  rw [shiftToTargetExponent_normal (by omega), width, shiftRight_exact]
  norm_num

/-- Rounding a positive integer gives its parts. -/
theorem round_positive {value : Nat} (positive : 0 < value) (sign : Sign) :
    ∃ nonzero, UnpackedFloat.round Format.binary64 sign value 0 =
      .finite sign (normalParts value).2 (normalParts value).1 nonzero := by
  obtain ⟨lower, upper⟩ := normalParts_bounds positive
  refine ⟨by omega, ?_⟩
  unfold UnpackedFloat.round
  simp only [targetExponent_normal value 0 (by omega), add_zero]
  by_cases narrow : value.log2 ≤ 52
  · have parts : normalParts value = ((value.log2 : ℤ) - 52, value * 2 ^ (52 - value.log2)) := by
      simp [normalParts, narrow]
    have decreased : decreaseExponent value 0 ((value.log2 : ℤ) - 52) =
        ((normalParts value).2, (normalParts value).1) := by
      have amount : (0 - ((value.log2 : ℤ) - 52)).toNat = 52 - value.log2 := by omega
      simp only [decreaseExponent, amount, Nat.shiftLeft_eq, parts]
      congr 1
      omega
    rw [decreased]
    have range : -1074 ≤ (normalParts value).1 := by
      rw [parts]
      simp only
      omega
    have nonzero : (normalParts value).2 ≠ 0 := by omega
    simp [roundWithAccuracy, shiftToTargetExponent_of_normal lower upper range,
      ExtendedMantissa.roundedMantissa, ExtendedMantissa.accuracy, Accuracy.roundToNearestEven, nonzero]
  · have decreased : decreaseExponent value 0 ((value.log2 : ℤ) - 52) = (value, 0) := by
      have amount : (0 - ((value.log2 : ℤ) - 52)).toNat = 0 := by omega
      simp only [decreaseExponent, amount, Nat.shiftLeft_zero, Nat.cast_zero, sub_zero]
    rw [decreased]
    have bounds := nearestShift_bounds (by omega : 52 < value.log2)
    have exponent : (0 : ℤ) + ((value.log2 - 52 : ℕ) : ℤ) = (value.log2 : ℤ) - 52 := by omega
    simp only [roundWithAccuracy,
      shiftToTargetExponent_normal (by omega : -1074 ≤ (value.log2 : ℤ) - 52 + 0),
      roundedMantissa_shiftRight, exponent]
    by_cases small : nearestShift (value.log2 - 52) value < 2 ^ 53
    · have parts : normalParts value =
          ((value.log2 : ℤ) - 52, nearestShift (value.log2 - 52) value) := by
        rw [normalParts, if_neg narrow]
        exact if_pos small
      have nonzero : nearestShift (value.log2 - 52) value ≠ 0 := by omega
      simp [shiftToTargetExponent_of_normal bounds.1 small
        (by omega : -1074 ≤ (value.log2 : ℤ) - 52), parts, nonzero]
    · have parts : normalParts value = ((value.log2 : ℤ) - 51, 2 ^ 52) := by
        rw [normalParts, if_neg narrow]
        exact if_neg small
      have power : nearestShift (value.log2 - 52) value = 2 ^ 53 := by omega
      simp only [power, shiftToTargetExponent_of_power (by omega : -1074 ≤ (value.log2 : ℤ) - 52), parts]
      simp
      omega

/-! ## Packing -/

theorem unpackSign_packComponents (format : Format) (sign : Sign) (exponent : BitVec format.exponentBits)
    (mantissa : BitVec format.mantissaBitsWithoutImplicit) :
    Sign.ofBitVec (unpackSign (packComponents format sign exponent mantissa)) = sign := by
  have bit : unpackSign (packComponents format sign exponent mantissa) = sign.toBitVec := by
    apply BitVec.eq_of_getLsbD_eq
    intro index within
    obtain rfl : index = 0 := by omega
    unfold unpackSign packComponents
    simp [BitVec.getLsbD_append, BitVec.getElem_append]
  rw [bit]
  cases sign <;> rfl

/-- A normal number survives packing. -/
theorem unpack_pack_normal {sign : Sign} {mantissa : Nat} {exponent : Int} (nonzero : 0 < mantissa)
    (lower : 2 ^ 52 ≤ mantissa) (upper : mantissa < 2 ^ 53)
    (range : -1074 ≤ exponent ∧ exponent ≤ 971) :
    (Float.Model.pack (.finite sign mantissa exponent nonzero)).unpack =
      .finite sign mantissa exponent nonzero := by
  have width := log2_of_normal lower upper
  obtain ⟨biased, biasedEq⟩ : ∃ biased : ℕ, (biased : ℤ) = exponent + 1075 :=
    ⟨(exponent + 1075).toNat, by omega⟩
  have biasedNat : (exponent + (Format.binary64.exponentBias : ℤ) +
      (Format.binary64.mantissaBitsWithoutImplicit : ℤ)).toNat = biased := by
    simp only [Format.exponentBias]
    norm_num
    omega
  have notMax : ¬ 2 ^ Format.binary64.exponentBits ≤ biased + 1 := by
    norm_num
    omega
  have bits : mantissa.log2 + 1 = Format.binary64.mantissaBits := by
    rw [width]
    rfl
  have packed : UnpackedFloat.pack Format.binary64 (.finite sign mantissa exponent nonzero) =
      packComponents Format.binary64 sign (BitVec.ofNat _ biased) (BitVec.ofNat _ mantissa) := by
    unfold UnpackedFloat.pack
    simp only [biasedNat, notMax, if_false, bits, if_true]
  have biasedRange : biased < 2047 ∧ 0 < biased := by omega
  have exponentNat : (BitVec.ofNat 11 biased).toNat = biased := by
    rw [BitVec.toNat_ofNat, Nat.mod_eq_of_lt (by norm_num; omega)]
  have notAllOnes : BitVec.ofNat 11 biased ≠ -1#11 := by
    intro same
    have := congrArg BitVec.toNat same
    rw [exponentNat] at this
    simp at this
    omega
  have notZero : BitVec.ofNat 11 biased ≠ 0#11 := by
    intro same
    have := congrArg BitVec.toNat same
    rw [exponentNat] at this
    simp at this
    omega
  have mantissaNat : (1#1 ++ BitVec.ofNat 52 mantissa).toNat = mantissa := by
    rw [BitVec.toNat_append, ← Nat.shiftLeft_add_eq_or_of_lt (BitVec.ofNat 52 mantissa).isLt,
      BitVec.toNat_ofNat, Nat.shiftLeft_eq]
    simp
    omega
  change UnpackedFloat.unpack Format.binary64 (UnpackedFloat.pack Format.binary64 _) = _
  rw [packed]
  unfold UnpackedFloat.unpack
  simp only [unpackMantissa_packComponents, unpackExponent_packComponents, unpackSign_packComponents,
    notAllOnes, notZero, if_false, mantissaNat, exponentNat]
  congr 1
  simp only [Format.exponentBias]
  norm_num
  omega

/-! ## Ranks of integers -/

/-- The rank of the double nearest to an integer. -/
def integerRank (value : Int) : ℤ ×ₗ ℤ ×ₗ ℤ :=
  if value = 0 then toLex (0, toLex (0, 0))
  else if 0 < value then
    toLex (1, toLex ((normalParts value.toNat).1, ((normalParts value.toNat).2 : ℤ)))
  else
    toLex (-1, toLex (-(normalParts (-value).toNat).1, -((normalParts (-value).toNat).2 : ℤ)))

theorem normalParts_exponent_range {value : Nat} (small : value.log2 < 1000) :
    -1074 ≤ (normalParts value).1 ∧ (normalParts value).1 ≤ 971 := by
  unfold normalParts
  split
  · simp only
    omega
  · simp only
    split <;> (simp only; omega)

theorem unpack_ofInteger_nonzero (value : Nat) (positive : 0 < value) (small : value.log2 < 1000)
    (sign : Sign) :
    ∃ nonzero, (Float.Model.pack (UnpackedFloat.round Format.binary64 sign value 0)).unpack =
      .finite sign (normalParts value).2 (normalParts value).1 nonzero := by
  obtain ⟨nonzero, rounded⟩ := round_positive positive sign
  obtain ⟨lower, upper⟩ := normalParts_bounds positive
  refine ⟨nonzero, ?_⟩
  rw [rounded]
  exact unpack_pack_normal nonzero lower upper (normalParts_exponent_range small)

/-- An integer of less than a thousand bits converts to a number, and its rank is known. -/
theorem rank_ofInteger {value : Int} (small : value.natAbs.log2 < 1000) :
    rank (ofInteger value) = some (integerRank value) := by
  unfold rank ofInteger integerRank Float.Model.ofInt UnpackedFloat.ofInt UnpackedFloat.normalize
  rcases lt_trichotomy value 0 with below | zero | above
  · have ordering : compare value 0 = .lt := compare_lt_iff_lt.mpr below
    obtain ⟨nonzero, unpacked⟩ := unpack_ofInteger_nonzero (-value).toNat (by omega)
      (by rwa [show (-value).toNat = value.natAbs by omega]) .negative
    simp only [ordering, unpacked, unpackedRank, below.ne, below.not_gt, if_false]
  · subst zero
    have ordering : compare (0 : ℤ) 0 = .eq := rfl
    simp only [ordering, if_true]
    decide
  · have ordering : compare value 0 = .gt := compare_gt_iff_gt.mpr above
    obtain ⟨nonzero, unpacked⟩ := unpack_ofInteger_nonzero value.toNat (by omega)
      (by rwa [show value.toNat = value.natAbs by omega]) .positive
    simp only [ordering, unpacked, unpackedRank, above.ne', above, if_false, if_true]

theorem integerRank_mono {first second : Int} (le : first ≤ second) :
    integerRank first ≤ integerRank second := by
  have lexLe (a b : ℤ) (x y : ℤ ×ₗ ℤ) : toLex (a, x) ≤ toLex (b, y) ↔ a < b ∨ (a = b ∧ x ≤ y) :=
    Prod.Lex.toLex_le_toLex
  have lexLe' (a b x y : ℤ) : toLex (a, x) ≤ toLex (b, y) ↔ a < b ∨ (a = b ∧ x ≤ y) :=
    Prod.Lex.toLex_le_toLex
  rcases lt_trichotomy first 0 with firstNegative | rfl | firstPositive
  · rcases lt_trichotomy second 0 with secondNegative | rfl | secondPositive
    · have parts := normalParts_mono (-second).toNat (-first).toNat (by omega) (by omega)
      simp only [integerRank, firstNegative.ne, firstNegative.not_gt, secondNegative.ne,
        secondNegative.not_gt, if_false, lexLe, lexLe', lt_irrefl, false_or, true_and]
      omega
    · simp only [integerRank, firstNegative.ne, firstNegative.not_gt, if_false, if_true, lexLe]
      omega
    · simp only [integerRank, firstNegative.ne, firstNegative.not_gt, secondPositive.ne',
        secondPositive, if_false, if_true, lexLe]
      omega
  · rcases lt_or_eq_of_le le with secondPositive | rfl
    · simp only [integerRank, secondPositive.ne', secondPositive, if_false, if_true, lexLe]
      omega
    · exact le_refl _
  · have secondPositive : 0 < second := by omega
    have parts := normalParts_mono first.toNat second.toNat (by omega) (by omega)
    simp only [integerRank, firstPositive.ne', firstPositive, secondPositive.ne', secondPositive,
      if_false, if_true, lexLe, lexLe', lt_irrefl, false_or, true_and]
    omega

/-- Comparing two integers as doubles compares their ranks. -/
theorem compareDoubles_ofInteger {first second : Int} (firstSmall : first.natAbs.log2 < 1000)
    (secondSmall : second.natAbs.log2 < 1000) :
    compareDoubles (ofInteger first) (ofInteger second) =
      some (compare (integerRank first) (integerRank second)) :=
  compareDoubles_of_ranks (rank_ofInteger firstSmall) (rank_ofInteger secondSmall)

end KernelLake.Library.Doubles
