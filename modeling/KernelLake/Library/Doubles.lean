import Mathlib.Algebra.Order.Ring.Int
import Mathlib.Data.Prod.Lex
import Mathlib.Order.Compare
import Mathlib.Order.Lattice
import Mathlib.Data.Int.Order.Basic

/-!
IEEE binary64 numbers as an ordered set.

`Float` carries a logical model in core, so its operations can be evaluated by the kernel. This
module adds what order reasoning needs: the four-way comparison of two doubles, a rank in a linear
order which that comparison reads off, and conversions between doubles and integers.
-/

namespace KernelLake.Library.Doubles

open Float.Model (UnpackedFloat)

/-- The rank of an unpacked double in a linear order; a NaN has none. Both zeros share one rank. -/
def unpackedRank : UnpackedFloat → Option (ℤ ×ₗ ℤ ×ₗ ℤ)
  | .notANumber => none
  | .infinity .negative => some (toLex (-2, toLex (0, 0)))
  | .finite .negative mantissa exponent _ => some (toLex (-1, toLex (-exponent, -(mantissa : ℤ))))
  | .zero _ => some (toLex (0, toLex (0, 0)))
  | .finite .positive mantissa exponent _ => some (toLex (1, toLex (exponent, (mantissa : ℤ))))
  | .infinity .positive => some (toLex (2, toLex (0, 0)))

/-- The rank of a double. -/
def rank (value : Float) : Option (ℤ ×ₗ ℤ ×ₗ ℤ) :=
  unpackedRank value.toModel.unpack

/-- The IEEE comparison of two doubles: `none` when they are unordered. -/
def compareDoubles (left right : Float) : Option Ordering :=
  left.toModel.compare right.toModel

/-- The nearest double to an integer, ties to even. -/
def ofInteger (value : Int) : Float :=
  ⟨Float.Model.ofInt value⟩

/-- The integer part of a double, towards zero; NaN and the infinities have none. -/
def truncate (value : Float) : Option Int :=
  match value.toModel.unpack with
  | .notANumber => none
  | .infinity _ => none
  | .zero _ => some 0
  | .finite sign mantissa exponent _ => some (UnpackedFloat.roundToInt sign mantissa exponent)

/-- The nearest integer to a double, halves away from zero. -/
def roundHalfAway (value : Float) : Option Int :=
  match value.toModel.unpack with
  | .notANumber => none
  | .infinity _ => none
  | .zero _ => some 0
  | .finite sign mantissa exponent _ =>
    let twice := mantissa * 2 ^ (exponent + 1).toNat / 2 ^ (-(exponent + 1)).toNat
    some (sign.apply ((twice + 1) / 2))

/-- A fraction rounded to an integer, ties to even. -/
def roundHalfEven (numerator denominator : Nat) : Nat :=
  let quotient := numerator / denominator
  let twice := 2 * (numerator % denominator)
  if denominator < twice ∨ (twice = denominator ∧ quotient % 2 = 1) then quotient + 1 else quotient

def signText : UnpackedFloat.Sign → String
  | .negative => "-"
  | .positive => ""

/-- Fixed-point text with six digits after the point, as C's `%f` prints a double. -/
def formatFixed (value : Float) : String :=
  match value.toModel.unpack with
  | .notANumber => "nan"
  | .infinity sign => signText sign ++ "inf"
  | .zero sign => signText sign ++ "0.000000"
  | .finite sign mantissa exponent _ =>
    let scaled :=
      roundHalfEven (mantissa * 10 ^ 6 * 2 ^ exponent.toNat) (2 ^ (-exponent).toNat)
    let digits := toString (scaled % 10 ^ 6)
    signText sign ++ toString (scaled / 10 ^ 6) ++ "." ++
      String.ofList (List.replicate (6 - digits.length) '0') ++ digits

/-! ## Comparison by rank -/

theorem compare_toLex {α β : Type} [Ord α] [Ord β] (a b : α) (x y : β) :
    compare (toLex (a, x)) (toLex (b, y)) = (compare a b).then (compare x y) := rfl

theorem compare_neg (a b : ℤ) : compare (-a) (-b) = (compare a b).swap := by
  rcases lt_trichotomy a b with below | same | above
  · rw [compare_lt_iff_lt.mpr below, compare_gt_iff_gt.mpr (by omega)]
    rfl
  · simp [same]
  · rw [compare_gt_iff_gt.mpr above, compare_lt_iff_lt.mpr (by omega)]
    rfl

theorem compare_natCast (a b : ℕ) : compare (a : ℤ) (b : ℤ) = compare a b := by
  rcases lt_trichotomy a b with below | same | above
  · rw [compare_lt_iff_lt.mpr below, compare_lt_iff_lt.mpr (by omega)]
  · simp [same]
  · rw [compare_gt_iff_gt.mpr above, compare_gt_iff_gt.mpr (by omega)]

theorem unpacked_compare_eq {left right : UnpackedFloat} {x y : ℤ ×ₗ ℤ ×ₗ ℤ}
    (leftRank : unpackedRank left = some x) (rightRank : unpackedRank right = some y) :
    left.compare right = some (compare x y) := by
  cases left with
  | notANumber => cases leftRank
  | infinity sign =>
    cases sign <;> obtain rfl := Option.some.inj leftRank <;> cases right with
    | notANumber => cases rightRank
    | infinity sign' => cases sign' <;> obtain rfl := Option.some.inj rightRank <;> decide
    | zero sign' => obtain rfl := Option.some.inj rightRank; cases sign' <;> decide
    | finite sign' m e h => cases sign' <;> obtain rfl := Option.some.inj rightRank <;> rfl
  | zero sign =>
    obtain rfl := Option.some.inj leftRank
    cases right with
    | notANumber => cases rightRank
    | infinity sign' => cases sign' <;> obtain rfl := Option.some.inj rightRank <;> rfl
    | zero sign' => obtain rfl := Option.some.inj rightRank; rfl
    | finite sign' m e h => cases sign' <;> obtain rfl := Option.some.inj rightRank <;> rfl
  | finite sign m e h =>
    cases right with
    | notANumber => cases rightRank
    | infinity sign' =>
      cases sign <;> cases sign' <;> obtain rfl := Option.some.inj leftRank <;>
        obtain rfl := Option.some.inj rightRank <;> rfl
    | zero sign' =>
      cases sign <;> obtain rfl := Option.some.inj leftRank <;> obtain rfl := Option.some.inj rightRank <;> rfl
    | finite sign' m' e' h' =>
      cases sign with
      | negative =>
        obtain rfl := Option.some.inj leftRank
        cases sign' with
        | negative =>
          obtain rfl := Option.some.inj rightRank
          change some ((compare e e').then (compare m m')).swap = _
          rw [Ordering.swap_then, compare_toLex, compare_toLex, compare_neg, compare_neg, compare_neg, compare_natCast]
          rfl
        | positive =>
          obtain rfl := Option.some.inj rightRank
          rfl
      | positive =>
        obtain rfl := Option.some.inj leftRank
        cases sign' with
        | negative =>
          obtain rfl := Option.some.inj rightRank
          rfl
        | positive =>
          obtain rfl := Option.some.inj rightRank
          change some ((compare e e').then (compare m m')) = _
          rw [compare_toLex, compare_toLex, compare_natCast]
          rfl

theorem compareDoubles_of_ranks {left right : Float} {x y : ℤ ×ₗ ℤ ×ₗ ℤ}
    (leftRank : rank left = some x) (rightRank : rank right = some y) :
    compareDoubles left right = some (compare x y) :=
  unpacked_compare_eq leftRank rightRank

theorem compareDoubles_of_unranked_left {left : Float} (unranked : rank left = none) (right : Float) :
    compareDoubles left right = none := by
  unfold rank at unranked
  unfold compareDoubles Float.Model.compare
  cases shape : left.toModel.unpack with
  | notANumber => rfl
  | infinity sign => cases sign <;> rw [shape] at unranked <;> cases unranked
  | zero sign =>
    rw [shape] at unranked
    cases unranked
  | finite sign mantissa exponent positive =>
    cases sign <;> rw [shape] at unranked <;> cases unranked

theorem compareDoubles_of_unranked_right (left : Float) {right : Float} (unranked : rank right = none) :
    compareDoubles left right = none := by
  unfold rank at unranked
  unfold compareDoubles Float.Model.compare
  cases shape : right.toModel.unpack with
  | notANumber => cases left.toModel.unpack <;> rfl
  | infinity sign => cases sign <;> rw [shape] at unranked <;> cases unranked
  | zero sign =>
    rw [shape] at unranked
    cases unranked
  | finite sign mantissa exponent positive =>
    cases sign <;> rw [shape] at unranked <;> cases unranked

theorem compare_swap {α : Type} [LinearOrder α] (a b : α) : (compare a b).swap = compare b a := by
  rw [← cmp_eq_compare, ← cmp_eq_compare, cmp_swap]

theorem compareDoubles_swap (left right : Float) :
    compareDoubles right left = (compareDoubles left right).map Ordering.swap := by
  cases leftRank : rank left with
  | none =>
    rw [compareDoubles_of_unranked_left leftRank, compareDoubles_of_unranked_right right leftRank]
    rfl
  | some x =>
    cases rightRank : rank right with
    | none =>
      rw [compareDoubles_of_unranked_left rightRank, compareDoubles_of_unranked_right left rightRank]
      rfl
    | some y =>
      rw [compareDoubles_of_ranks leftRank rightRank, compareDoubles_of_ranks rightRank leftRank]
      simp [compare_swap]

end KernelLake.Library.Doubles
