import Mathlib.Tactic.NormNum
import ScriptHost.Number.Text
import ScriptHost.Proofs.Number.Integral

set_option autoImplicit false

namespace ScriptHost

theorem roundDiv_scale (n d : Nat) {scale : Nat} (positive : 0 < scale) :
    roundDiv (n * scale) (d * scale) = roundDiv n d := by
  have quotient : n * scale / (d * scale) = n / d := Nat.mul_div_mul_right n d positive
  have remainder : n * scale % (d * scale) = n % d * scale := Nat.mul_mod_mul_right scale n d
  have less : 2 * (n % d * scale) < d * scale ↔ 2 * (n % d) < d := by
    rw [← Nat.mul_assoc]
    exact Nat.mul_lt_mul_right positive
  have equal : 2 * (n % d * scale) = d * scale ↔ 2 * (n % d) = d := by
    rw [← Nat.mul_assoc]
    exact Nat.mul_left_inj positive.ne'
  rw [roundDiv, roundDiv, quotient, remainder]
  simp only [less, equal]

namespace FloatFormat

section Ratio

variable (f : FloatFormat)

theorem ofRatio_scale (n d : Nat) {scale : Nat} (positive : 0 < scale) :
    f.ofRatio (n * scale) (d * scale) = f.ofRatio n d := by
  have quotient : n * scale / (d * scale) = n / d := Nat.mul_div_mul_right n d positive
  rw [ofRatio, ofRatio, quotient]
  simp only [Nat.mul_right_comm d scale, roundDiv_scale n _ positive]

/-- Equal quotients have the same nearest pattern. -/
theorem ofRatio_congr {n d n' d' : Nat} (positive : 0 < d) (positive' : 0 < d')
    (equal : n * d' = n' * d) : f.ofRatio n d = f.ofRatio n' d' := by
  rw [← f.ofRatio_scale n d positive', equal, Nat.mul_comm d d', f.ofRatio_scale n' d' positive]

/-- What is less than half a unit is rounded to nothing. -/
theorem ofRatio_of_small {n d : Nat} (small : 2 * n < d) : f.ofRatio n d = 0 := by
  have quotient : n / d = 0 := Nat.div_eq_of_lt (by omega)
  have remainder : n % d = n := Nat.mod_eq_of_lt (by omega)
  have rounded : roundDiv n d = 0 := by
    rw [roundDiv, quotient, remainder]
    simp [small]
  have shift : Nat.log2 0 - (f.precision - 1) = 0 := by simp
  rw [ofRatio, quotient, shift]
  simp only [Nat.pow_eq, Nat.pow_zero, Nat.mul_one, rounded]
  simp

/-- What has more bits than the format has exponents is infinite. -/
theorem ofRatio_of_large {n d : Nat} (positive : 0 < d)
    (large : 2 ^ (2 ^ f.exponentBits + f.precision) * d ≤ n) : f.ofRatio n d = f.infinity := by
  have quotient : 2 ^ (2 ^ f.exponentBits + f.precision) ≤ n / d :=
    (Nat.le_div_iff_mul_le positive).mpr large
  have bits : 2 ^ f.exponentBits + f.precision ≤ (n / d).log2 := by
    have power := Nat.two_pow_pos (2 ^ f.exponentBits + f.precision)
    exact (Nat.le_log2 (by omega)).mpr quotient
  rw [ofRatio]
  refine Nat.min_eq_right ?_
  calc f.infinity ≤ ((n / d).log2 - (f.precision - 1)) * f.hidden := by
        rw [infinity, Nat.pow_eq]
        exact Nat.mul_le_mul_right _ (by omega)
    _ ≤ _ := Nat.le_add_right _ _

end Ratio

/-- The value of a numeral is this many units, divided by a power of ten. -/
def unitsOf (d : Decimal) : Nat := d.coefficient * 10 ^ d.exponent.toNat * double.one

def divisorOf (d : Decimal) : Nat := 10 ^ (-d.exponent).toNat

theorem divisorOf_pos (d : Decimal) : 0 < divisorOf d := Nat.pow_pos (by decide)

theorem pow_two_le_pow_ten {n m : Nat} (fewer : n ≤ 3 * m) : 2 ^ n ≤ 10 ^ m := by
  calc 2 ^ n ≤ 2 ^ (3 * m) := Nat.pow_le_pow_right (by decide) fewer
    _ = 8 ^ m := Nat.pow_mul 2 3 m
    _ ≤ 10 ^ m := Nat.pow_le_pow_left (by decide) m

theorem two_mul_one_le : 2 * double.one ≤ 10 ^ (double.unitExponent + 1) := by
  rw [one, Nat.pow_eq, ← Nat.pow_succ']
  exact pow_two_le_pow_ten (by omega)

/-- A numeral past the greatest power of ten is infinite. -/
theorem ofRatio_of_exponent {d : Decimal} (some : d.coefficient ≠ 0)
    (large : double.unitExponent < d.exponent) :
    double.ofRatio (unitsOf d) (divisorOf d) = double.infinity := by
  have unit := double_unitExponent
  have whole : divisorOf d = 1 := by
    rw [divisorOf, Int.toNat_of_nonpos (by omega), Nat.pow_zero]
  obtain ⟨more, fewer, bits⟩ : ∃ more ≤ 1027,
      2 ^ double.exponentBits + double.precision = more + double.unitExponent :=
    ⟨1027, le_rfl, rfl⟩
  have power : 2 ^ more ≤ d.coefficient * 10 ^ d.exponent.toNat :=
    (pow_two_le_pow_ten (by omega)).trans (Nat.le_mul_of_pos_left _ (Nat.pos_of_ne_zero some))
  refine double.ofRatio_of_large (divisorOf_pos d) ?_
  rw [whole, Nat.mul_one, bits, Nat.pow_add, unitsOf, one, Nat.pow_eq]
  generalize 2 ^ double.unitExponent = one
  exact Nat.mul_le_mul_right one power

/-- A numeral with too few digits before its power of ten is nothing. -/
theorem ofRatio_of_digits {d : Decimal}
    (small : d.exponent + (d.coefficient.log2 / 3 + 1) < -(double.unitExponent : Int)) :
    double.ofRatio (unitsOf d) (divisorOf d) = 0 := by
  have fraction : d.exponent.toNat = 0 := Int.toNat_of_nonpos (by omega)
  have coefficient : d.coefficient < 10 ^ (d.coefficient.log2 / 3 + 1) :=
    Nat.lt_of_lt_of_le Nat.lt_log2_self (pow_two_le_pow_ten (by omega))
  refine double.ofRatio_of_small ?_
  rw [unitsOf, divisorOf, fraction, Nat.pow_zero, Nat.mul_one]
  calc 2 * (d.coefficient * double.one) = d.coefficient * (2 * double.one) :=
        Nat.mul_left_comm _ _ _
    _ < 10 ^ (d.coefficient.log2 / 3 + 1) * 10 ^ (double.unitExponent + 1) :=
        Nat.mul_lt_mul_of_lt_of_le coefficient two_mul_one_le (Nat.pow_pos (by decide))
    _ = 10 ^ (d.coefficient.log2 / 3 + 1 + (double.unitExponent + 1)) := (Nat.pow_add _ _ _).symm
    _ ≤ 10 ^ (-d.exponent).toNat := Nat.pow_le_pow_right (by decide) (by omega)

/-- A numeral is read as the pattern nearest to its value: what is decided without the powers of ten
is decided rightly. -/
theorem ofDecimal_eq_ofRatio (d : Decimal) :
    double.ofDecimal d = double.ofRatio (unitsOf d) (divisorOf d) := by
  rw [ofDecimal]
  split
  · rename_i none
    rw [unitsOf, none, Nat.zero_mul, Nat.zero_mul]
    exact (double.ofRatio_of_small (divisorOf_pos d)).symm
  split
  · exact (ofRatio_of_exponent (by assumption) (by omega)).symm
  split
  · exact (ofRatio_of_digits (by omega)).symm
  split
  · have whole : (-d.exponent).toNat = 0 := Int.toNat_of_nonpos (by omega)
    rw [divisorOf, whole]
    rfl
  · have fraction : d.exponent.toNat = 0 := Int.toNat_of_nonpos (by omega)
    rw [unitsOf, fraction, Nat.pow_zero, Nat.mul_one]
    rfl

/-- Zeros can be moved from the exponent of a numeral to the end of its coefficient. -/
theorem ofDecimal_shift (c : Nat) (e : Int) (k : Nat) :
    double.ofDecimal ⟨c * 10 ^ k, e - k⟩ = double.ofDecimal ⟨c, e⟩ := by
  rw [ofDecimal_eq_ofRatio, ofDecimal_eq_ofRatio]
  refine double.ofRatio_congr (divisorOf_pos _) (divisorOf_pos _) ?_
  simp only [unitsOf, divisorOf]
  have powers : 10 ^ k * 10 ^ (e - k).toNat * 10 ^ (-e).toNat =
      10 ^ e.toNat * 10 ^ (-(e - k)).toNat := by
    rw [← Nat.pow_add, ← Nat.pow_add, ← Nat.pow_add]
    congr 1
    omega
  calc c * 10 ^ k * 10 ^ (e - k).toNat * double.one * 10 ^ (-e).toNat
      = c * (10 ^ k * 10 ^ (e - k).toNat * 10 ^ (-e).toNat) * double.one := by ring
    _ = c * 10 ^ e.toNat * double.one * 10 ^ (-(e - k)).toNat := by
        rw [powers]
        ring

theorem ofDecimal_trim (d : Decimal) : double.ofDecimal d.trim = double.ofDecimal d := by
  have go (fuel : Nat) (d : Decimal) :
      double.ofDecimal (Decimal.trim.go fuel d) = double.ofDecimal d := by
    induction fuel generalizing d with
    | zero => rfl
    | succ fuel ih =>
        rw [Decimal.trim.go]
        split
        · rename_i zero
          have moved := ofDecimal_shift (d.coefficient / 10) (d.exponent + 1) 1
          have digits : d.coefficient / 10 * 10 ^ 1 = d.coefficient := by omega
          have power : d.exponent + 1 - (1 : Nat) = d.exponent := by omega
          rw [digits, power] at moved
          rw [ih, ← moved]
        · rfl
  exact go _ d

/-- A value in units is a numeral with as many decimal places as the unit has halvings. -/
theorem ofDecimal_units (units : Nat) :
    double.ofDecimal ⟨units * Nat.pow 5 double.unitExponent, -double.unitExponent⟩ =
      double.ofRatio units 1 := by
  rw [ofDecimal_eq_ofRatio]
  refine double.ofRatio_congr (divisorOf_pos _) Nat.one_pos ?_
  have whole : (-(double.unitExponent : Int)).toNat = 0 := Int.toNat_of_nonpos (by omega)
  have places : (-(-(double.unitExponent : Int))).toNat = double.unitExponent := by omega
  simp only [unitsOf, divisorOf, whole, places, one, Nat.pow_eq]
  generalize double.unitExponent = u
  have ten : 10 ^ u = 5 ^ u * 2 ^ u := by rw [← Nat.mul_pow]
  rw [ten]
  ring

theorem ofDecimal_of_onGrid {pattern n d : Nat} {exponent : Int} {found : Decimal}
    (hit : Decimal.onGrid double pattern n d exponent = some found) :
    double.ofDecimal found = pattern := by
  rw [Decimal.onGrid] at hit
  simpa using List.find?_some hit

/-- The shortest numeral of a finite pattern is read as that pattern. -/
theorem ofDecimal_shortest {pattern : Nat} (finite : pattern < double.infinity) :
    double.ofDecimal (Decimal.shortest double pattern) = pattern := by
  rw [Decimal.shortest, ofDecimal_trim]
  generalize sought : List.findSome? _ (List.range 17) = found
  cases found with
  | none =>
      rw [Option.getD_none, ofDecimal_units, double.ofRatio_magnitude finite]
  | some numeral =>
      obtain ⟨i, -, hit⟩ := List.exists_of_findSome?_eq_some sought
      exact ofDecimal_of_onGrid hit

/-- What is read as a positive pattern has a digit other than zero. -/
theorem coefficient_ne_zero {d : Decimal} (some : double.ofDecimal d ≠ 0) : d.coefficient ≠ 0 := by
  intro none
  rw [ofDecimal, if_pos none] at some
  exact some rfl

theorem pow_length_le {d : Decimal} (some : d.coefficient ≠ 0) :
    10 ^ (d.digits.length - 1) ≤ d.coefficient := by
  by_cases single : d.digits.length - 1 = 0
  · rw [single]
    omega
  · by_contra less
    have shorter := (Nat.length_toDigits_le_iff (b := 10) (by decide) (by omega)).mpr
      (Nat.lt_of_not_le less)
    rw [Decimal.digits] at shorter single
    omega

/-- A numeral that is read as a positive finite pattern takes an exponent of four digits at most. -/
theorem leading_of_ofDecimal {d : Decimal} {pattern : Nat} (read : double.ofDecimal d = pattern)
    (some : pattern ≠ 0) (finite : pattern < double.infinity) : d.leading.natAbs < 2000 := by
  have unit := double_unitExponent
  have coefficient := coefficient_ne_zero (read ▸ some)
  rw [ofDecimal_eq_ofRatio] at read
  -- the value is at least half a unit, and less than what is infinite
  have low : divisorOf d ≤ 2 * unitsOf d := by
    by_contra small
    exact some (read.symm.trans (double.ofRatio_of_small (by omega)))
  have high : unitsOf d < 2 ^ (2 ^ double.exponentBits + double.precision) * divisorOf d := by
    by_contra large
    have infinite := double.ofRatio_of_large (divisorOf_pos d) (Nat.le_of_not_lt large)
    omega
  have digits : d.coefficient < 10 ^ d.digits.length :=
    (Nat.length_toDigits_le_iff (b := 10) (by decide) Nat.length_toDigits_pos).mp le_rfl
  have least : (-d.exponent).toNat <
      d.digits.length + d.exponent.toNat + (double.unitExponent + 1) := by
    refine (Nat.pow_lt_pow_iff_right (a := 10) (by decide)).mp ?_
    calc 10 ^ (-d.exponent).toNat
        ≤ 2 * (d.coefficient * 10 ^ d.exponent.toNat * double.one) := low
      _ = d.coefficient * 10 ^ d.exponent.toNat * (2 * double.one) := Nat.mul_left_comm _ _ _
      _ < 10 ^ d.digits.length * 10 ^ d.exponent.toNat * 10 ^ (double.unitExponent + 1) :=
          Nat.mul_lt_mul_of_lt_of_le
            (Nat.mul_lt_mul_of_pos_right digits (Nat.pow_pos (by decide))) two_mul_one_le
            (Nat.pow_pos (by decide))
      _ = _ := by rw [← Nat.pow_add, ← Nat.pow_add]
  obtain ⟨most, below, bits⟩ : ∃ most < 1000,
      2 ^ (2 ^ double.exponentBits + double.precision) ≤ 10 ^ most :=
    ⟨2 ^ double.exponentBits / 3 + double.precision, by decide, pow_two_le_pow_ten (by decide)⟩
  have greatest : d.digits.length - 1 + d.exponent.toNat < most + (-d.exponent).toNat := by
    refine (Nat.pow_lt_pow_iff_right (a := 10) (by decide)).mp ?_
    calc 10 ^ (d.digits.length - 1 + d.exponent.toNat)
        = 10 ^ (d.digits.length - 1) * 10 ^ d.exponent.toNat := Nat.pow_add _ _ _
      _ ≤ d.coefficient * 10 ^ d.exponent.toNat :=
          Nat.mul_le_mul_right _ (pow_length_le coefficient)
      _ ≤ unitsOf d := Nat.le_mul_of_pos_right _ double.one_pos
      _ < 2 ^ (2 ^ double.exponentBits + double.precision) * divisorOf d := high
      _ ≤ 10 ^ most * divisorOf d := Nat.mul_le_mul_right _ bits
      _ = _ := (Nat.pow_add _ _ _).symm
  rw [Decimal.leading]
  omega

end FloatFormat

namespace Binary64

theorem ofDecimal_eq_ofUnits (negative : Bool) (d : Decimal) :
    ofDecimal negative d = ofUnits negative (FloatFormat.unitsOf d) (FloatFormat.divisorOf d) := by
  rw [ofDecimal, FloatFormat.ofDecimal_eq_ofRatio, ofUnits]

theorem isNaN_ofDecimal (negative : Bool) (d : Decimal) : (ofDecimal negative d).isNaN = false := by
  rw [ofDecimal_eq_ofUnits, isNaN_ofUnits]

end Binary64

end ScriptHost
