import Mathlib.Algebra.Order.Ring.Rat
import Mathlib.Tactic.FieldSimp
import ScriptHost.Proofs.Number.Integral

set_option autoImplicit false

namespace ScriptHost.Binary64

open FloatFormat

def exponentField (x : Binary64) : Nat := x.bits.toNat / 2 ^ 52 % 2 ^ 11

def fractionField (x : Binary64) : Nat := x.bits.toNat % 2 ^ 52

/-- The value of a finite number. -/
def value (x : Binary64) : Rat :=
  (if x.bits.toNat < 2 ^ 63 then 1 else -1) *
    if x.exponentField = 0 then (x.fractionField : Rat) * 2 ^ (-1074 : Int)
    else ((2 ^ 52 + x.fractionField : Nat) : Rat) * 2 ^ ((x.exponentField : Int) - 1075)

theorem magnitude_eq (x : Binary64) : x.magnitude =
    if x.exponentField = 0 then x.fractionField
    else (2 ^ 52 + x.fractionField) * 2 ^ (x.exponentField - 1) := by
  have sign : double.signBit = 2 ^ 63 := by decide
  have hidden : double.hidden = 2 ^ 52 := by decide
  have exponent : x.unsigned / 2 ^ 52 = x.exponentField := by
    rw [unsigned, sign, exponentField]
    omega
  have fraction : x.unsigned % 2 ^ 52 = x.fractionField := by
    rw [unsigned, sign, fractionField]
    omega
  rw [magnitude, FloatFormat.magnitude, hidden]
  simp only [exponent, fraction, Nat.pow_eq]

theorem two_zpow_sub {exponent : Nat} (some : exponent ≠ 0) (unit : Nat) :
    (2 : Rat) ^ ((exponent : Int) - (unit + 1)) = 2 ^ (exponent - 1) / 2 ^ unit := by
  have split : (exponent : Int) - (unit + 1) = ((exponent - 1 : Nat) : Int) - (unit : Int) := by
    omega
  rw [split, zpow_sub₀ two_ne_zero, zpow_natCast, zpow_natCast]

/-- A value is counted in units. -/
theorem value_eq (x : Binary64) : x.value = x.signed / double.one := by
  have positive : x.bits.toNat < 2 ^ 63 ↔ x.isNegative = false := by
    have sign : double.signBit = 2 ^ 63 := by decide
    rw [isNegative, sign, decide_eq_false_iff_not, Nat.not_le]
  have one : (double.one : Rat) = 2 ^ double.unitExponent := by
    rw [FloatFormat.one, Nat.pow_eq, Nat.cast_pow, Nat.cast_ofNat]
  have units : (x.magnitude : Rat) / double.one =
      if x.exponentField = 0 then (x.fractionField : Rat) * 2 ^ (-1074 : Int)
      else ((2 ^ 52 + x.fractionField : Nat) : Rat) * 2 ^ ((x.exponentField : Int) - 1075) := by
    rw [magnitude_eq, one]
    split
    · have least : (2 : Rat) ^ (-1074 : Int) = (2 ^ double.unitExponent)⁻¹ := by
        rw [← zpow_natCast, ← zpow_neg]
        rfl
      rw [least, div_eq_mul_inv]
    · rename_i some
      have scaled : (2 : Rat) ^ ((x.exponentField : Int) - 1075) =
          2 ^ (x.exponentField - 1) / 2 ^ double.unitExponent := two_zpow_sub some _
      rw [scaled, Nat.cast_mul, Nat.cast_pow, Nat.cast_ofNat, mul_div_assoc]
  rw [value, ← units, signed]
  cases sign : x.isNegative with
  | true =>
      rw [if_neg (by rw [positive, sign]; simp), if_pos rfl]
      push_cast
      ring
  | false =>
      rw [if_pos (positive.mpr sign), if_neg (by simp), one_mul]
      rfl

theorem toInt?_eq_some_iff_value {x : Binary64} {n : Int} :
    x.toInt? = some n ↔ x.isFinite = true ∧ x.value = n := by
  have unit : (double.one : Rat) ≠ 0 := Nat.cast_ne_zero.mpr double.one_pos.ne'
  rw [toInt?_eq_some_iff, value_eq, div_eq_iff unit]
  refine and_congr_right fun _ => ?_
  rw [← Int.cast_natCast (R := Rat), ← Int.cast_mul, Int.cast_inj]

/-- A number is integral exactly if its value is an integer that a signed word holds. -/
theorem integral_eq_some_iff_value {x : Binary64} {n : Int} :
    x.integral = some n ↔
      x.isFinite = true ∧ x.value = n ∧ -2 ^ 63 ≤ n ∧ n < 2 ^ 63 := by
  rw [integral_eq_some_iff, toInt?_eq_some_iff_value, and_assoc]
  rfl

end ScriptHost.Binary64
