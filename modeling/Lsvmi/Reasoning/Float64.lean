import Mathlib.Data.Rat.Floor
import Mathlib.Algebra.Order.Field.Basic

/-!
# Binary64 arithmetic

The result of a floating point operation is the exact result rounded to the nearest number with a
significand of 53 bits, ties to even.  The values are rationals and the exponent is not bounded, so
that overflow, underflow and what is not a number are left out.
-/

namespace Lsvmi.Reasoning

def roundEven (q : ℚ) : Int :=
  let below := ⌊q⌋
  let rest := q - below
  if rest < 1 / 2 then below
  else if 1 / 2 < rest then below + 1
  else if below % 2 = 0 then below else below + 1

/-- The exponent of the power of two just below `|q|`, for `q ≠ 0`. -/
def exponent (q : ℚ) : Int :=
  -- the bit lengths of the numerator and the denominator give it up to one
  let e : Int := q.num.natAbs.log2 - q.den.log2
  if (2 : ℚ) ^ e ≤ |q| then e else e - 1

def float64 (q : ℚ) : ℚ :=
  let ulp : ℚ := 2 ^ (exponent q - 52)
  roundEven (q / ulp) * ulp

/-- Conversion to a 64 bit integer, toward zero.  Values out of range give the least integer, as on
amd64. -/
def toInt64 (q : ℚ) : Int :=
  let truncated := if q < 0 then ⌈q⌉ else ⌊q⌋
  if -2 ^ 63 ≤ truncated ∧ truncated < 2 ^ 63 then truncated else -2 ^ 63

end Lsvmi.Reasoning
