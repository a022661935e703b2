set_option autoImplicit false

namespace ScriptHost

/-- The quotient of two naturals rounded to the nearest whole number, a half to the even one. -/
def roundDiv (numerator denominator : Nat) : Nat :=
  let quotient := numerator / denominator
  let twice := 2 * (numerator % denominator)
  if twice < denominator ∨ (twice = denominator ∧ quotient % 2 = 0) then quotient else quotient + 1

/-- A binary format: bits of significand, the hidden one included, and bits of exponent. A finite
number is a whole multiple of the least positive one, so that magnitudes are natural numbers in that
unit and rounding is exact division. -/
structure FloatFormat where
  precision : Nat
  exponentBits : Nat
deriving DecidableEq, Repr

namespace FloatFormat

def double : FloatFormat := ⟨53, 11⟩

def single : FloatFormat := ⟨24, 8⟩

/-- The hidden bit of a normal number, as a significand. -/
def hidden (f : FloatFormat) : Nat := Nat.pow 2 (f.precision - 1)

/-- The least positive number is two to the negative of this. -/
def unitExponent (f : FloatFormat) : Nat := Nat.pow 2 (f.exponentBits - 1) + f.precision - 3

/-- How many units make one. -/
def one (f : FloatFormat) : Nat := Nat.pow 2 f.unitExponent

/-- The unsigned pattern of infinity; greater unsigned patterns are not numbers. -/
def infinity (f : FloatFormat) : Nat := (Nat.pow 2 f.exponentBits - 1) * f.hidden

/-- The pattern that holds the sign alone. -/
def signBit (f : FloatFormat) : Nat := Nat.pow 2 f.exponentBits * f.hidden

/-- The value of an unsigned finite pattern, in units. -/
def magnitude (f : FloatFormat) (bits : Nat) : Nat :=
  let exponent := bits / f.hidden
  let fraction := bits % f.hidden
  if exponent = 0 then fraction else (f.hidden + fraction) * Nat.pow 2 (exponent - 1)

/-- The unsigned pattern nearest to a quotient of naturals, in units; ties go to the even pattern
and magnitudes past the largest finite one to infinity. -/
def ofRatio (f : FloatFormat) (numerator denominator : Nat) : Nat :=
  let shift := (numerator / denominator).log2 - (f.precision - 1)
  min (shift * f.hidden + roundDiv numerator (denominator * Nat.pow 2 shift)) f.infinity

theorem double_unitExponent : double.unitExponent = 1074 := rfl

theorem ofRatio_le_infinity (f : FloatFormat) (n d : Nat) : f.ofRatio n d ≤ f.infinity :=
  Nat.min_le_right _ _

end FloatFormat

end ScriptHost
