import KernelLake.Library.DoubleRounding

/-!
Products of doubles, and doubles rounded to integers.

A product of finite doubles is their exact product, rounded. It is not rounded when 53 bits are enough for it,
and the sign of a factor is only carried over. What a double rounds to is the integer nearest to its number.
-/

namespace KernelLake.Library.DoubleProducts

open KernelLake.Library.Doubles KernelLake.Library.DoubleValues KernelLake.Library.DoubleRounding
open Float.Model (UnpackedFloat Format totalExponent)
open Float.Model.UnpackedFloat

/-! ## Signs -/

theorem neg_mul_sign (first second : Sign) : -first * second = -(first * second) := by
  cases first <;> cases second <;> rfl

/-- Packing and unpacking carries the sign over. -/
theorem unpack_packComponents_neg (sign : Sign) (exponent : BitVec Format.binary64.exponentBits)
    (mantissa : BitVec Format.binary64.mantissaBitsWithoutImplicit) :
    UnpackedFloat.unpack Format.binary64 (packComponents Format.binary64 (-sign) exponent mantissa) =
      (UnpackedFloat.unpack Format.binary64 (packComponents Format.binary64 sign exponent mantissa)).neg := by
  unfold UnpackedFloat.unpack
  simp only [Doubles.unpackSign_packComponents, unpackExponent_packComponents, unpackMantissa_packComponents]
  split
  · split <;> rfl
  · split
    · split <;> rfl
    · rfl

theorem unpack_pack_neg (unpacked : UnpackedFloat) :
    (Float.Model.pack unpacked.neg).unpack = (Float.Model.pack unpacked).unpack.neg := by
  change UnpackedFloat.unpack Format.binary64 (UnpackedFloat.pack Format.binary64 unpacked.neg) =
    (UnpackedFloat.unpack Format.binary64 (UnpackedFloat.pack Format.binary64 unpacked)).neg
  cases unpacked with
  | notANumber => rfl
  | infinity sign => exact unpack_packComponents_neg sign _ _
  | zero sign => exact unpack_packComponents_neg sign _ _
  | finite sign mantissa exponent nonzero =>
    simp only [UnpackedFloat.neg, UnpackedFloat.pack]
    split
    · exact unpack_packComponents_neg sign _ _
    · split <;> exact unpack_packComponents_neg sign _ _

theorem unpack_neg (value : Float) : (-value).toModel.unpack = value.toModel.unpack.neg := by
  change UnpackedFloat.unpack Format.binary64 (bitsOf (-value.toModel)) =
    (UnpackedFloat.unpack Format.binary64 (bitsOf value.toModel)).neg
  by_cases number : unpackExponent (bitsOf value.toModel) = -1#_ → unpackMantissa (bitsOf value.toModel) = 0#_
  · rw [bitsOf_neg _ number, unpack_packComponents_neg, packComponents_unpacked]
  · obtain ⟨infinite, nonzero⟩ := Classical.not_imp.mp number
    rw [neg_notANumber _ infinite nonzero]
    unfold UnpackedFloat.unpack
    simp only [infinite, if_true, nonzero, if_false]
    rfl

theorem value_neg (unpacked : UnpackedFloat) :
    unpackedValue unpacked.neg = (unpackedValue unpacked).map (fun number => -number) := by
  cases unpacked with
  | notANumber => rfl
  | infinity => rfl
  | zero => rfl
  | finite sign =>
    cases sign
    · exact congrArg some (by simp [Sign.apply])
    · exact congrArg some (by simp [Sign.apply])

theorem exactValue_neg (value : Float) : exactValue (-value) = (exactValue value).map (fun number => -number) := by
  rw [exactValue, unpack_neg, value_neg]
  rfl

theorem roundWithAccuracy_neg (sign : Sign) (mantissa : Nat) (exponent : ℤ) :
    roundWithAccuracy Format.binary64 (-sign) mantissa exponent .exact =
      (roundWithAccuracy Format.binary64 sign mantissa exponent .exact).neg := by
  unfold roundWithAccuracy
  simp only
  split <;> rfl

theorem mul_neg_unpacked (left right : UnpackedFloat) :
    UnpackedFloat.mul Format.binary64 left.neg right = (UnpackedFloat.mul Format.binary64 left right).neg := by
  cases left <;> cases right <;>
    simp only [UnpackedFloat.neg, UnpackedFloat.mul, neg_mul_sign, roundWithAccuracy_neg]

/-- The product with a negated factor is the negated product. -/
theorem exactValue_neg_mul (left right : Float) :
    exactValue (-left * right) = (exactValue (left * right)).map (fun number => -number) := by
  change unpackedValue (Float.Model.pack (UnpackedFloat.mul Format.binary64 (-left).toModel.unpack
    right.toModel.unpack)).unpack = _
  rw [unpack_neg, mul_neg_unpacked, unpack_pack_neg, value_neg]
  rfl

/-! ## Products -/

theorem unpackedValue_finite (sign : Sign) (mantissa : Nat) (exponent : ℤ) (nonzero : 0 < mantissa) :
    unpackedValue (.finite sign mantissa exponent nonzero) =
      some (sign.apply 1 * ((mantissa : ℚ) * 2 ^ exponent)) := by
  cases sign <;> simp [unpackedValue, Sign.apply]

/-- A product of finite doubles in the range of normal numbers is the exact product, rounded. -/
theorem exactValue_mul {left right : Float} {leftSign rightSign : Sign} {leftMantissa rightMantissa : Nat}
    {leftExponent rightExponent : ℤ} {leftNonzero : 0 < leftMantissa} {rightNonzero : 0 < rightMantissa}
    (leftParts : left.toModel.unpack = .finite leftSign leftMantissa leftExponent leftNonzero)
    (rightParts : right.toModel.unpack = .finite rightSign rightMantissa rightExponent rightNonzero)
    (wide : 52 ≤ (leftMantissa * rightMantissa).log2)
    (normal : -1022 ≤ ((leftMantissa * rightMantissa).log2 : ℤ) + (leftExponent + rightExponent))
    (fits : ((leftMantissa * rightMantissa).log2 : ℤ) + (leftExponent + rightExponent) ≤ 1022) :
    exactValue (left * right) = some (Int.cast ((leftSign * rightSign).apply 1) *
      (nearest (leftMantissa * rightMantissa) * 2 ^ (leftExponent + rightExponent))) := by
  have positive : 0 < leftMantissa * rightMantissa := Nat.mul_pos leftNonzero rightNonzero
  obtain ⟨lower, upper⟩ := normalParts_bounds positive
  have exponents := normalParts_exponent (leftMantissa * rightMantissa)
  obtain ⟨nonzero, rounded⟩ := roundWithAccuracy_wide wide
    (by omega : -1074 ≤ ((leftMantissa * rightMantissa).log2 : ℤ) - 52 + (leftExponent + rightExponent))
    (leftSign * rightSign)
  have product : (left * right).toModel.unpack = (Float.Model.pack (roundWithAccuracy Format.binary64
      (leftSign * rightSign) (leftMantissa * rightMantissa) (leftExponent + rightExponent) .exact)).unpack := by
    change (Float.Model.pack (UnpackedFloat.mul Format.binary64 left.toModel.unpack
      right.toModel.unpack)).unpack = _
    rw [leftParts, rightParts]
    rfl
  rw [exactValue, product, rounded, unpack_pack_normal nonzero lower upper ⟨by omega, by omega⟩,
    unpackedValue_finite, nearest, zpow_add₀ (two_ne_zero' ℚ)]
  congr 1
  ring

/-! ## Integers as doubles -/

def signOf (value : ℤ) : Sign :=
  if value < 0 then .negative else .positive

/-- The parts of an integer's double. -/
theorem unpack_ofInteger {value : ℤ} (nonzero : value ≠ 0) (small : value.natAbs.log2 < 1000) :
    ∃ positive, (ofInteger value).toModel.unpack = .finite (signOf value) (normalParts value.natAbs).2
      (normalParts value.natAbs).1 positive := by
  change ∃ positive, (Float.Model.pack (UnpackedFloat.normalize Format.binary64 value 0 .positive)).unpack = _
  unfold UnpackedFloat.normalize signOf
  rcases lt_or_gt_of_ne nonzero with below | above
  · have magnitude : (-value).toNat = value.natAbs := by omega
    simp only [compare_lt_iff_lt.mpr below, below, if_true, magnitude]
    exact unpack_ofInteger_nonzero value.natAbs (by omega) small .negative
  · have magnitude : value.toNat = value.natAbs := by omega
    simp only [compare_gt_iff_gt.mpr above, not_lt.mpr above.le, if_false, magnitude]
    exact unpack_ofInteger_nonzero value.natAbs (by omega) small .positive

theorem exactValue_ofInteger {value : ℤ} (nonzero : value ≠ 0) (small : value.natAbs.log2 < 1000) :
    exactValue (ofInteger value) = some ((signOf value).apply 1 * nearest value.natAbs) := by
  obtain ⟨positive, parts⟩ := unpack_ofInteger nonzero small
  rw [exactValue, parts, unpackedValue_finite]
  rfl

theorem exactValue_zero : exactValue (ofInteger 0) = some 0 := by
  decide +kernel

/-- An integer that 53 bits are enough for, up to a power of two. -/
def Representable (value : ℤ) : Prop :=
  ∃ digits shift : Nat, digits < 2 ^ 53 ∧ value.natAbs = digits * 2 ^ shift

theorem nearest_representable {value exponent : ℤ} {mantissa : Nat} (representable : Representable value)
    (same : (mantissa : ℚ) * 2 ^ exponent = value.natAbs) : nearest mantissa = mantissa := by
  obtain ⟨digits, shift, small, digitsSame⟩ := representable
  rw [digitsSame] at same
  push_cast at same
  rcases Int.le_total exponent shift with within | beyond
  · obtain ⟨more, moreEq⟩ := Int.eq_ofNat_of_zero_le (sub_nonneg.mpr within)
    have whole : mantissa = digits * 2 ^ more := by
      have power : (2 : ℚ) ^ shift = 2 ^ more * 2 ^ exponent := by
        rw [← zpow_natCast, ← zpow_natCast, ← zpow_add₀ (two_ne_zero' ℚ)]
        congr 1
        omega
      have positive : (2 : ℚ) ^ exponent ≠ 0 := by positivity
      rw [power, ← mul_assoc, mul_left_inj' positive] at same
      exact_mod_cast same
    rw [whole]
    exact nearest_exact small
  · obtain ⟨more, moreEq⟩ := Int.eq_ofNat_of_zero_le (sub_nonneg.mpr beyond)
    have whole : mantissa * 2 ^ more = digits := by
      have power : (2 : ℚ) ^ exponent = 2 ^ more * 2 ^ shift := by
        rw [← zpow_natCast, ← zpow_natCast, ← zpow_add₀ (two_ne_zero' ℚ)]
        congr 1
        omega
      have positive : (2 : ℚ) ^ shift ≠ 0 := by positivity
      rw [power, ← mul_assoc, mul_left_inj' positive] at same
      exact_mod_cast same
    have smaller := Nat.le_mul_of_pos_right mantissa (Nat.two_pow_pos more)
    have exact := @nearest_exact mantissa 0 (by omega)
    simpa using exact

theorem finite_of_nonzero {value : Float} {number : ℚ} (isNumber : exactValue value = some number)
    (nonzero : number ≠ 0) :
    ∃ sign mantissa exponent positive, value.toModel.unpack = .finite sign mantissa exponent positive ∧
      number = sign.apply 1 * ((mantissa : ℚ) * 2 ^ exponent) := by
  unfold exactValue at isNumber
  cases unpacked : value.toModel.unpack with
  | notANumber =>
    rw [unpacked] at isNumber
    cases isNumber
  | infinity =>
    rw [unpacked] at isNumber
    cases isNumber
  | zero =>
    rw [unpacked] at isNumber
    exact absurd (Option.some.inj isNumber).symm nonzero
  | finite sign mantissa exponent positive =>
    rw [unpacked, unpackedValue_finite] at isNumber
    exact ⟨sign, mantissa, exponent, positive, rfl, (Option.some.inj isNumber).symm⟩

theorem sign_apply_abs (sign : Sign) (number : ℚ) : |(sign.apply 1 : ℚ) * number| = |number| := by
  cases sign <;> simp [Sign.apply]

/-- A product that is an integer of 53 significant bits is not rounded. -/
theorem exactValue_mul_exact {left right : Float} {number : ℚ} {mantissa : Nat} {exponent product : ℤ}
    {positive : 0 < mantissa} (isNumber : exactValue left = some number)
    (rightParts : right.toModel.unpack = .finite .positive mantissa exponent positive)
    (normal : 2 ^ 52 ≤ mantissa) (same : number * ((mantissa : ℚ) * 2 ^ exponent) = product)
    (nonzero : product ≠ 0) (small : product.natAbs < 2 ^ 64) (representable : Representable product) :
    exactValue (left * right) = some (product : ℚ) := by
  have numberNonzero : number ≠ 0 := by
    rintro rfl
    rw [zero_mul] at same
    exact nonzero (by exact_mod_cast same.symm)
  obtain ⟨sign, leftMantissa, leftExponent, leftPositive, leftParts, rfl⟩ := finite_of_nonzero isNumber numberNonzero
  have bothPositive : 0 < leftMantissa * mantissa := Nat.mul_pos leftPositive positive
  have magnitude : ((leftMantissa * mantissa : ℕ) : ℚ) * 2 ^ (leftExponent + exponent) = product.natAbs := by
    have magnitudes := congrArg (fun number : ℚ => |number|) same
    simp only [mul_assoc, sign_apply_abs] at magnitudes
    rw [abs_of_pos (by positivity)] at magnitudes
    rw [Nat.cast_natAbs, Int.cast_abs, ← magnitudes, zpow_add₀ (two_ne_zero' ℚ)]
    push_cast
    ring
  have whole := nearest_representable representable magnitude
  obtain ⟨lower, upper⟩ := log2_bounds bothPositive
  have power : (0 : ℚ) < 2 ^ (leftExponent + exponent) := by positivity
  have atLeast : -1 < ((leftMantissa * mantissa).log2 : ℤ) + (leftExponent + exponent) := by
    have one : (1 : ℚ) ≤ product.natAbs := by exact_mod_cast Int.natAbs_pos.mpr nonzero
    have below : ((leftMantissa * mantissa : ℕ) : ℚ) < 2 ^ ((leftMantissa * mantissa).log2 + 1) := by
      exact_mod_cast upper
    have product := mul_lt_mul_of_pos_right below power
    rw [magnitude, ← zpow_natCast, ← zpow_add₀ (two_ne_zero' ℚ)] at product
    have exponents := (one_lt_zpow_iff_right₀ (one_lt_two (α := ℚ))).mp (one.trans_lt product)
    push_cast at exponents
    omega
  have atMost : ((leftMantissa * mantissa).log2 : ℤ) + (leftExponent + exponent) < 64 := by
    have above : (product.natAbs : ℚ) < 2 ^ 64 := by exact_mod_cast small
    have least : (2 : ℚ) ^ (leftMantissa * mantissa).log2 ≤ ((leftMantissa * mantissa : ℕ) : ℚ) := by
      exact_mod_cast lower
    have product := mul_le_mul_of_nonneg_right least power.le
    rw [magnitude, ← zpow_natCast, ← zpow_add₀ (two_ne_zero' ℚ)] at product
    have exponents := (zpow_lt_zpow_iff_right₀ (one_lt_two (α := ℚ))).mp
      (product.trans_lt (above.trans_eq (zpow_natCast (2 : ℚ) 64).symm))
    exact_mod_cast exponents
  have wide : 52 ≤ (leftMantissa * mantissa).log2 := by
    apply (Nat.le_log2 bothPositive.ne').mpr
    exact normal.trans (Nat.le_mul_of_pos_left mantissa leftPositive)
  rw [exactValue_mul leftParts rightParts wide (by omega) (by omega), whole]
  congr 1
  rw [← same, show sign * Sign.positive = sign by cases sign <;> rfl, zpow_add₀ (two_ne_zero' ℚ)]
  push_cast
  ring

/-! ## Rounding to integers -/

/-- Twice a scaled mantissa, cut off. -/
theorem twice_bounds (mantissa : Nat) (exponent : ℤ) :
    let twice := mantissa * 2 ^ (exponent + 1).toNat / 2 ^ (-(exponent + 1)).toNat
    (twice : ℚ) ≤ 2 * (mantissa * 2 ^ exponent) ∧ 2 * ((mantissa : ℚ) * 2 ^ exponent) < twice + 1 := by
  intro twice
  have doubled : 2 * ((mantissa : ℚ) * 2 ^ exponent) =
      ((mantissa * 2 ^ (exponent + 1).toNat : ℕ) : ℚ) / ((2 ^ (-(exponent + 1)).toNat : ℕ) : ℚ) := by
    have split : exponent + 1 = ((exponent + 1).toNat : ℤ) - ((-(exponent + 1)).toNat : ℤ) := by omega
    have power : (2 : ℚ) ^ exponent * 2 = 2 ^ (exponent + 1).toNat / 2 ^ (-(exponent + 1)).toNat := by
      rw [← zpow_add_one₀ (two_ne_zero' ℚ), ← zpow_natCast, ← zpow_natCast, ← zpow_sub₀ (two_ne_zero' ℚ), ← split]
    push_cast
    rw [mul_div_assoc, ← power]
    ring
  have positive : (0 : ℚ) < ((2 ^ (-(exponent + 1)).toNat : ℕ) : ℚ) := by positivity
  rw [doubled]
  refine ⟨Nat.cast_div_le, ?_⟩
  rw [div_lt_iff₀ positive]
  exact_mod_cast Nat.lt_mul_of_div_lt (Nat.lt_succ_self twice) (Nat.two_pow_pos _)

/-- A double rounds to an integer at most one half away from its number. -/
theorem roundHalfAway_near {value : Float} {number : ℚ} (isNumber : exactValue value = some number) :
    ∃ rounded, roundHalfAway value = some rounded ∧ |(rounded : ℚ) - number| ≤ 1 / 2 := by
  unfold exactValue at isNumber
  unfold roundHalfAway
  cases unpacked : value.toModel.unpack with
  | notANumber =>
    rw [unpacked] at isNumber
    cases isNumber
  | infinity =>
    rw [unpacked] at isNumber
    cases isNumber
  | zero =>
    rw [unpacked] at isNumber
    refine ⟨0, rfl, ?_⟩
    rw [← Option.some.inj isNumber]
    norm_num
  | finite sign mantissa exponent positive =>
    rw [unpacked, unpackedValue_finite] at isNumber
    refine ⟨_, rfl, ?_⟩
    obtain ⟨least, below⟩ := twice_bounds mantissa exponent
    rw [← Option.some.inj isNumber]
    generalize mantissa * 2 ^ (exponent + 1).toNat / 2 ^ (-(exponent + 1)).toNat = twice at least below
    have halves : 2 * ((twice + 1) / 2) ≤ twice + 1 ∧ twice ≤ 2 * ((twice + 1) / 2) := by omega
    have upper : (2 : ℚ) * ((twice + 1) / 2 : ℕ) ≤ twice + 1 := by exact_mod_cast halves.1
    have lower : (twice : ℚ) ≤ 2 * ((twice + 1) / 2 : ℕ) := by exact_mod_cast halves.2
    have whole : ((twice : ℤ) + 1) / 2 = ((twice + 1) / 2 : ℕ) := by push_cast; rfl
    rw [whole]
    generalize (twice + 1) / 2 = half at upper lower
    have near : |(half : ℚ) - mantissa * 2 ^ exponent| ≤ 1 / 2 := by
      rw [abs_le]
      constructor <;> linarith
    have factor : ((sign.apply half : ℤ) : ℚ) - (sign.apply 1 : ℤ) * (mantissa * 2 ^ exponent) =
        (sign.apply 1 : ℤ) * (half - mantissa * 2 ^ exponent) := by
      cases sign
      · simp only [Sign.apply, Int.cast_neg, Int.cast_natCast, Int.cast_one]
        ring
      · simp only [Sign.apply, Int.cast_natCast, Int.cast_one]
        ring
    exact factor ▸ (sign_apply_abs sign _).trans_le near

theorem exactValue_of_roundHalfAway {value : Float} {rounded : ℤ} (ran : roundHalfAway value = some rounded) :
    ∃ number, exactValue value = some number := by
  unfold roundHalfAway at ran
  unfold exactValue
  cases unpacked : value.toModel.unpack with
  | notANumber =>
    rw [unpacked] at ran
    cases ran
  | infinity =>
    rw [unpacked] at ran
    cases ran
  | zero => exact ⟨_, rfl⟩
  | finite => exact ⟨_, rfl⟩

theorem eq_of_near {first second : ℤ} (near : |(first : ℚ) - second| ≤ 1 / 2) : first = second := by
  have bounds := abs_le.mp near
  have upper : (2 * (first - second) : ℤ) ≤ 1 := by
    have := bounds.2
    exact_mod_cast (by linarith : (2 : ℚ) * (first - second) ≤ 1)
  have lower : -1 ≤ (2 * (first - second) : ℤ) := by
    have := bounds.1
    exact_mod_cast (by linarith : (-1 : ℚ) ≤ 2 * (first - second))
  omega

/-- A double that is an integer rounds to itself. -/
theorem roundHalfAway_integer {value : Float} {whole : ℤ} (isWhole : exactValue value = some (whole : ℚ)) :
    roundHalfAway value = some whole := by
  obtain ⟨rounded, ran, near⟩ := roundHalfAway_near isWhole
  rw [ran, eq_of_near near]

/-- What a double rounds to has at most 53 significant bits. -/
theorem representable_of_roundHalfAway {value : Float} {rounded : ℤ} (ran : roundHalfAway value = some rounded) :
    Representable rounded := by
  have canonical : Canonical value.toModel.unpack := canonical_unpack _
  unfold roundHalfAway at ran
  cases unpacked : value.toModel.unpack with
  | notANumber =>
    rw [unpacked] at ran
    cases ran
  | infinity =>
    rw [unpacked] at ran
    cases ran
  | zero =>
    rw [unpacked] at ran
    obtain rfl := Option.some.inj ran
    exact ⟨0, 0, by decide, rfl⟩
  | finite sign mantissa exponent positive =>
    rw [unpacked] at canonical ran
    obtain rfl := Option.some.inj ran
    have magnitude (twice : Nat) : (sign.apply (((twice : ℤ) + 1) / 2)).natAbs = (twice + 1) / 2 := by
      cases sign <;> simp only [Sign.apply] <;> omega
    rw [Representable, magnitude]
    rcases Int.lt_or_le exponent 0 with fraction | whole
    · have unit : (exponent + 1).toNat = 0 := by omega
      have cut := Nat.div_le_self (mantissa * 2 ^ (exponent + 1).toNat) (2 ^ (-(exponent + 1)).toNat)
      rw [unit, Nat.pow_zero, Nat.mul_one] at cut ⊢
      have bounded := canonical.1
      exact ⟨_, 0, by omega, (Nat.mul_one _).symm⟩
    · have power : (exponent + 1).toNat = exponent.toNat + 1 := by omega
      have unit : (-(exponent + 1)).toNat = 0 := by omega
      refine ⟨mantissa, exponent.toNat, canonical.1, ?_⟩
      rw [unit, power, Nat.pow_zero, Nat.div_one, Nat.pow_succ, ← Nat.mul_assoc]
      omega

end KernelLake.Library.DoubleProducts
