import KernelLake.Library.IntegerDoubles

/-!
The sign of a double.

A double that is unpacked and packed again keeps its bits, also when its sign is exchanged on the way.
So negation turns one bit, and doing it twice changes nothing.
-/

namespace KernelLake.Library.Doubles

open Float.Model (UnpackedFloat Format)
open Float.Model.UnpackedFloat

/-! ## Packing what was unpacked -/

/-- A number with another sign. -/
def withSign (sign : Sign) : UnpackedFloat → UnpackedFloat
  | .notANumber => .notANumber
  | .infinity _ => .infinity sign
  | .zero _ => .zero sign
  | .finite _ mantissa exponent nonzero => .finite sign mantissa exponent nonzero

theorem toBitVec_ofBitVec : ∀ bit : BitVec 1, (Sign.ofBitVec bit).toBitVec = bit := by
  decide

/-- The bits of a double are its sign, its exponent and its mantissa. -/
theorem packComponents_unpacked (bits : BitVec Format.binary64.numBits) :
    packComponents Format.binary64 (Sign.ofBitVec (unpackSign bits)) (unpackExponent bits)
      (unpackMantissa bits) = bits := by
  unfold packComponents
  rw [toBitVec_ofBitVec]
  apply BitVec.eq_of_getLsbD_eq
  intro index within
  have width : index < 64 := within
  unfold unpackSign
  simp only [BitVec.getLsbD_append, unpackMantissa, unpackExponent, BitVec.getLsbD_cast,
    BitVec.getLsbD_extractLsb, Format.binary64]
  split
  · rename_i low
    simp only [Nat.zero_add, Bool.and_eq_right_iff_imp, decide_eq_true_eq]
    intro _
    omega
  · split
    · rename_i low middle
      rw [show 52 + (index - 52) = index by omega]
      simp only [Bool.and_eq_right_iff_imp, decide_eq_true_eq]
      intro _
      omega
    · obtain rfl : index = 63 := by omega
      rfl

theorem pack_finite {sign : Sign} {mantissa : Nat} {exponent : Int} {nonzero : 0 < mantissa} {biased : Nat}
    (same : (exponent + (Format.binary64.exponentBias : ℤ) +
      (Format.binary64.mantissaBitsWithoutImplicit : ℤ)).toNat = biased) (small : biased < 2047) :
    UnpackedFloat.pack Format.binary64 (.finite sign mantissa exponent nonzero) =
      packComponents Format.binary64 sign
        (if mantissa.log2 + 1 = Format.binary64.mantissaBits then BitVec.ofNat _ biased else 0#_)
        (BitVec.ofNat _ mantissa) := by
  have notMax : ¬ 2 ^ Format.binary64.exponentBits ≤ biased + 1 := by
    change ¬ 2 ^ 11 ≤ biased + 1
    omega
  unfold UnpackedFloat.pack
  simp only [same, notMax, if_false]
  split <;> rfl

/-- A number that was unpacked is packed into the bits it came from, up to its sign. -/
theorem pack_withSign (sign : Sign) (bits : BitVec Format.binary64.numBits)
    (number : unpackExponent bits = -1#_ → unpackMantissa bits = 0#_) :
    UnpackedFloat.pack Format.binary64 (withSign sign (UnpackedFloat.unpack Format.binary64 bits)) =
      packComponents Format.binary64 sign (unpackExponent bits) (unpackMantissa bits) := by
  unfold UnpackedFloat.unpack
  have range : (unpackExponent bits).toNat < 2 ^ 11 := (unpackExponent bits).isLt
  have mantissaRange : (unpackMantissa bits).toNat < 2 ^ 52 := (unpackMantissa bits).isLt
  simp only
  split
  · rename_i infinite
    rw [if_pos (number infinite), number infinite, infinite]
    rfl
  · rename_i finite
    split
    · rename_i subnormal
      split
      · rename_i zero
        rw [zero, subnormal]
        rfl
      · rename_i nonzero
        have narrow : (unpackMantissa bits).toNat.log2 < 52 :=
          (Nat.log2_lt fun zero => nonzero (BitVec.eq_of_toNat_eq (by rw [zero]; rfl))).mpr mantissaRange
        have notNormal : ¬ (unpackMantissa bits).toNat.log2 + 1 = Format.binary64.mantissaBits := by
          change ¬ _ = 53
          omega
        rw [withSign, @pack_finite sign _ _ _ 1, if_neg notNormal, BitVec.ofNat_toNat, subnormal]
        · simp
        · rw [subnormal]
          rfl
        · omega
    · rename_i normal
      have finiteRange : (unpackExponent bits).toNat < 2047 := by
        by_contra atLeast
        have largest : (unpackExponent bits).toNat = 2047 := by omega
        exact finite (BitVec.eq_of_toNat_eq (by rw [largest]; rfl))
      have value : (1#1 ++ unpackMantissa bits).toNat = 2 ^ 52 + (unpackMantissa bits).toNat := by
        rw [BitVec.toNat_append, ← Nat.shiftLeft_add_eq_or_of_lt (unpackMantissa bits).isLt, Nat.shiftLeft_eq]
        rfl
      have isNormal : (1#1 ++ unpackMantissa bits).toNat.log2 + 1 = Format.binary64.mantissaBits := by
        rw [value, log2_of_normal (by omega) (by omega)]
        rfl
      rw [withSign, @pack_finite sign _ _ _ (unpackExponent bits).toNat _ finiteRange, if_pos isNormal]
      · congr 1
        · simp
        · refine BitVec.eq_of_toNat_eq ?_
          rw [BitVec.toNat_ofNat, value]
          change (2 ^ 52 + (unpackMantissa bits).toNat) % 2 ^ 52 = _
          omega
      · simp only [Format.exponentBias, Format.binary64]
        norm_num
        omega
/-! ## Negation -/

theorem neg_unpack (bits : BitVec Format.binary64.numBits) :
    (UnpackedFloat.unpack Format.binary64 bits).neg =
      withSign (-Sign.ofBitVec (unpackSign bits)) (UnpackedFloat.unpack Format.binary64 bits) := by
  unfold UnpackedFloat.unpack
  simp only
  split
  · split <;> rfl
  · split
    · split <;> rfl
    · rfl

theorem neg_sign (sign : Sign) : - -sign = sign := by
  cases sign <;> rfl

/-- The bits of a double. -/
def bitsOf (model : Float.Model) : BitVec Format.binary64.numBits :=
  model.toBits.toBitVec

theorem eq_of_bitsOf_eq {first second : Float.Model} (same : bitsOf first = bitsOf second) :
    first = second := by
  obtain ⟨⟨first⟩, _⟩ := first
  obtain ⟨⟨second⟩, _⟩ := second
  obtain rfl : first = second := same
  rfl

/-- Negation turns a number's sign and leaves its other bits. -/
theorem bitsOf_neg (model : Float.Model)
    (number : unpackExponent (bitsOf model) = -1#_ → unpackMantissa (bitsOf model) = 0#_) :
    bitsOf (-model) = packComponents Format.binary64 (-Sign.ofBitVec (unpackSign (bitsOf model)))
      (unpackExponent (bitsOf model)) (unpackMantissa (bitsOf model)) := by
  change UnpackedFloat.pack Format.binary64 (UnpackedFloat.unpack Format.binary64 (bitsOf model)).neg = _
  rw [neg_unpack, pack_withSign _ _ number]

/-- A NaN is its own negation: only one is represented. -/
theorem neg_notANumber (model : Float.Model) (infinite : unpackExponent (bitsOf model) = -1#_)
    (nonzero : unpackMantissa (bitsOf model) ≠ 0#_) : -model = model := by
  have canonical : bitsOf model = packedNaN Format.binary64 := model.valid.eq_packedNaN infinite nonzero
  have unpacked : UnpackedFloat.unpack Format.binary64 (bitsOf model) = .notANumber := by
    unfold UnpackedFloat.unpack
    simp only [infinite, if_true, nonzero, if_false]
  refine eq_of_bitsOf_eq ?_
  change UnpackedFloat.pack Format.binary64 (UnpackedFloat.unpack Format.binary64 (bitsOf model)).neg = _
  rw [unpacked, canonical]
  rfl

theorem neg_neg_model (model : Float.Model) : - -model = model := by
  by_cases number : unpackExponent (bitsOf model) = -1#_ → unpackMantissa (bitsOf model) = 0#_
  · have once := bitsOf_neg model number
    have numberOnce : unpackExponent (bitsOf (-model)) = -1#_ → unpackMantissa (bitsOf (-model)) = 0#_ := by
      rw [once, unpackExponent_packComponents, unpackMantissa_packComponents]
      exact number
    refine eq_of_bitsOf_eq ?_
    rw [bitsOf_neg _ numberOnce, once, unpackExponent_packComponents, unpackMantissa_packComponents,
      unpackSign_packComponents, neg_sign, packComponents_unpacked]
  · obtain ⟨infinite, nonzero⟩ := Classical.not_imp.mp number
    have fixed := neg_notANumber model infinite nonzero
    rw [fixed, fixed]

/-- Negating a double twice gives it back. -/
theorem neg_neg_double (value : Float) : - -value = value := by
  obtain ⟨model⟩ := value
  change (⟨- -model⟩ : Float) = ⟨model⟩
  rw [neg_neg_model]

end KernelLake.Library.Doubles
