import KernelLake.Library.Doubles
import Mathlib.Data.Rat.Defs
import Mathlib.Algebra.Order.Field.Rat

/-!
The number that a double stands for.

Every finite double is a fraction with a power of two below the line. NaN and the infinities stand for no
number.
-/

namespace KernelLake.Library.DoubleValues

open KernelLake.Library.Doubles Float.Model

/-- The number that an unpacked double stands for. -/
def unpackedValue : UnpackedFloat → Option ℚ
  | .notANumber => none
  | .infinity _ => none
  | .zero _ => some 0
  | .finite sign mantissa exponent _ => some (sign.apply mantissa * (2 : ℚ) ^ exponent)

/-- The number that a double stands for. -/
def exactValue (value : Float) : Option ℚ :=
  unpackedValue value.toModel.unpack

end KernelLake.Library.DoubleValues
