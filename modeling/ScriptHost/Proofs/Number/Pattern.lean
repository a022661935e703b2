import Mathlib.Order.Monotone.Basic
import Mathlib.Tactic.Ring
import ScriptHost.Number.Format

set_option autoImplicit false

namespace ScriptHost

theorem roundDiv_mul (quotient : Nat) {denominator : Nat} (positive : 0 < denominator) :
    roundDiv (quotient * denominator) denominator = quotient := by
  have divided : quotient * denominator / denominator = quotient :=
    Nat.mul_div_cancel quotient positive
  have remainder : quotient * denominator % denominator = 0 := Nat.mul_mod_left quotient denominator
  rw [roundDiv, divided, remainder]
  simp [positive]

/-- What is rounded to the bits of a significand has at most one bit more. -/
theorem roundDiv_le {units most divisor : Nat} (below : units < most * divisor) :
    roundDiv units divisor ≤ most := by
  have quotient : units / divisor < most := Nat.div_lt_of_lt_mul (by rwa [Nat.mul_comm])
  rw [roundDiv]
  split
  · exact Nat.le_of_lt quotient
  · exact quotient

namespace FloatFormat

variable (f : FloatFormat)

theorem hidden_pos : 0 < f.hidden := Nat.two_pow_pos _

/-- Where there is no exponent the value is the pattern. -/
theorem magnitude_of_lt {pattern : Nat} (subnormal : pattern < f.hidden) :
    f.magnitude pattern = pattern := by
  rw [magnitude]
  simp only [Nat.div_eq_of_lt subnormal, if_true, Nat.mod_eq_of_lt subnormal]

theorem magnitude_normal (exponent : Nat) {fraction : Nat} (small : fraction < f.hidden) :
    f.magnitude ((exponent + 1) * f.hidden + fraction) =
      (f.hidden + fraction) * 2 ^ exponent := by
  have quotient : ((exponent + 1) * f.hidden + fraction) / f.hidden = exponent + 1 := by
    rw [Nat.add_comm, Nat.add_mul_div_right _ _ f.hidden_pos, Nat.div_eq_of_lt small, Nat.zero_add]
  have remainder : ((exponent + 1) * f.hidden + fraction) % f.hidden = fraction := by
    rw [Nat.add_comm, Nat.add_mul_mod_self_right, Nat.mod_eq_of_lt small]
  rw [magnitude]
  simp only [quotient, remainder, if_neg (Nat.succ_ne_zero exponent), Nat.add_sub_cancel,
    Nat.pow_eq]

/-- A pattern is below the hidden bit, or it has an exponent and a fraction. -/
theorem pattern_cases (pattern : Nat) : pattern < f.hidden ∨
    ∃ exponent fraction, pattern = (exponent + 1) * f.hidden + fraction ∧ fraction < f.hidden := by
  by_cases subnormal : pattern < f.hidden
  · exact .inl subnormal
  · have some : pattern / f.hidden ≠ 0 :=
      Nat.ne_of_gt (Nat.div_pos (Nat.le_of_not_lt subnormal) f.hidden_pos)
    refine .inr ⟨pattern / f.hidden - 1, pattern % f.hidden, ?_, Nat.mod_lt _ f.hidden_pos⟩
    rw [Nat.sub_add_cancel (Nat.one_le_iff_ne_zero.mpr some), Nat.mul_comm, Nat.div_add_mod]

theorem log2_normal (exponent : Nat) {fraction : Nat} (small : fraction < f.hidden) :
    ((f.hidden + fraction) * 2 ^ exponent).log2 = f.precision - 1 + exponent := by
  have hidden : f.hidden = 2 ^ (f.precision - 1) := rfl
  have scale : 0 < 2 ^ exponent := Nat.two_pow_pos exponent
  have positive : (f.hidden + fraction) * 2 ^ exponent ≠ 0 := by
    have some := f.hidden_pos
    exact Nat.ne_of_gt (Nat.mul_pos (by omega) scale)
  rw [Nat.log2_eq_iff positive]
  constructor
  · rw [pow_add, ← hidden]
    exact Nat.mul_le_mul_right _ (Nat.le_add_right _ _)
  · have twice : 2 ^ (f.precision - 1 + exponent + 1) = (f.hidden + f.hidden) * 2 ^ exponent := by
      rw [hidden]
      ring
    rw [twice]
    exact Nat.mul_lt_mul_of_pos_right (by omega) scale

theorem ofRatio_whole (units : Nat) :
    f.ofRatio units 1 = min ((units.log2 - (f.precision - 1)) * f.hidden +
      roundDiv units (2 ^ (units.log2 - (f.precision - 1)))) f.infinity := by
  rw [ofRatio]
  simp only [Nat.div_one, Nat.one_mul, Nat.pow_eq]

/-- A pattern below infinity is the one nearest to its value. -/
theorem ofRatio_magnitude {pattern : Nat} (finite : pattern < f.infinity) :
    f.ofRatio (f.magnitude pattern) 1 = pattern := by
  rcases f.pattern_cases pattern with subnormal | ⟨exponent, fraction, rfl, small⟩
  · have unscaled : pattern.log2 - (f.precision - 1) = 0 := by
      by_cases zero : pattern = 0
      · simp [zero]
      · have bound : pattern.log2 < f.precision - 1 := (Nat.log2_lt zero).mpr subnormal
        omega
    have rounded : roundDiv pattern 1 = pattern := by
      simpa using roundDiv_mul pattern Nat.one_pos
    rw [magnitude_of_lt f subnormal, ofRatio_whole, unscaled, pow_zero, Nat.zero_mul, Nat.zero_add,
      rounded, Nat.min_eq_left (Nat.le_of_lt finite)]
  · have shift : f.precision - 1 + exponent - (f.precision - 1) = exponent := by omega
    have rounded := roundDiv_mul (f.hidden + fraction) (Nat.two_pow_pos exponent)
    have sum : exponent * f.hidden + (f.hidden + fraction) =
        (exponent + 1) * f.hidden + fraction := by
      ring
    rw [magnitude_normal f exponent small, ofRatio_whole, log2_normal f exponent small, shift,
      rounded, sum, Nat.min_eq_left (Nat.le_of_lt finite)]

theorem magnitude_eq_zero_iff {pattern : Nat} : f.magnitude pattern = 0 ↔ pattern = 0 := by
  rcases f.pattern_cases pattern with subnormal | ⟨exponent, fraction, rfl, small⟩
  · rw [magnitude_of_lt f subnormal]
  · have hidden := f.hidden_pos
    have some : 0 < (f.hidden + fraction) * 2 ^ exponent :=
      Nat.mul_pos (by omega) (Nat.two_pow_pos exponent)
    have more : f.hidden ≤ (exponent + 1) * f.hidden := Nat.le_mul_of_pos_left _ (by omega)
    rw [magnitude_normal f exponent small]
    omega

/-- A count of units is rounded to the bits of a significand, or just past them. -/
theorem roundDiv_log2_le (units : Nat) :
    roundDiv units (2 ^ (units.log2 - (f.precision - 1))) ≤ 2 * f.hidden := by
  have hidden : f.hidden = 2 ^ (f.precision - 1) := rfl
  apply roundDiv_le
  calc units < 2 ^ (units.log2 + 1) := Nat.lt_log2_self
    _ ≤ 2 ^ (f.precision - 1 + 1 + (units.log2 - (f.precision - 1))) :=
      Nat.pow_le_pow_right Nat.two_pos (by omega)
    _ = 2 * f.hidden * 2 ^ (units.log2 - (f.precision - 1)) := by
      rw [hidden]
      ring

/-- The pattern of a whole count of units is bounded by how many bits the count has more than a
significand. -/
theorem ofRatio_whole_le {units extra : Nat} (below : units < 2 ^ (f.precision + extra)) :
    f.ofRatio units 1 ≤ (extra + 2) * f.hidden := by
  have shift : units.log2 - (f.precision - 1) ≤ extra := by
    by_cases zero : units = 0
    · rw [zero, Nat.log2_zero]
      omega
    · have size : units.log2 < f.precision + extra := (Nat.log2_lt zero).mpr below
      omega
  rw [ofRatio_whole, Nat.add_mul]
  exact Nat.le_trans (Nat.min_le_left _ _)
    (Nat.add_le_add (Nat.mul_le_mul_right _ shift) (f.roundDiv_log2_le units))

theorem ofRatio_natural_le {n bits extra : Nat} (below : n < 2 ^ bits)
    (room : bits + f.unitExponent = f.precision + extra) :
    f.ofRatio (n * f.one) 1 ≤ (extra + 2) * f.hidden := by
  apply f.ofRatio_whole_le
  rw [← room, Nat.pow_add, one, Nat.pow_eq]
  exact Nat.mul_lt_mul_of_pos_right below (Nat.two_pow_pos _)

/-- The pattern that adds a significand to an exponent has the value of the significand, scaled. -/
theorem magnitude_shifted {shift significand : Nat} (most : significand ≤ 2 * f.hidden)
    (normal : shift = 0 ∨ f.hidden ≤ significand) :
    f.magnitude (shift * f.hidden + significand) = significand * 2 ^ shift := by
  have some := f.hidden_pos
  by_cases subnormal : significand < f.hidden
  · obtain rfl : shift = 0 := by omega
    rw [Nat.zero_mul, Nat.zero_add, magnitude_of_lt f subnormal, pow_zero, Nat.mul_one]
  by_cases carried : significand = 2 * f.hidden
  · have pattern : shift * f.hidden + significand = (shift + 1 + 1) * f.hidden + 0 := by
      rw [carried]
      ring
    rw [pattern, magnitude_normal f (shift + 1) some, carried]
    ring
  · have pattern : shift * f.hidden + significand =
        (shift + 1) * f.hidden + (significand - f.hidden) := by
      rw [Nat.add_mul]
      omega
    have restored : f.hidden + (significand - f.hidden) = significand := by omega
    rw [pattern, magnitude_normal f shift (by omega), restored]

theorem exists_shifted (pattern : Nat) : ∃ shift significand,
    pattern = shift * f.hidden + significand ∧ significand < 2 * f.hidden ∧
      (shift = 0 ∨ f.hidden ≤ significand) := by
  rcases f.pattern_cases pattern with subnormal | ⟨exponent, fraction, rfl, small⟩
  · exact ⟨0, pattern, by omega, by omega, .inl rfl⟩
  · refine ⟨exponent, f.hidden + fraction, ?_, by omega, .inr (Nat.le_add_right _ _)⟩
    ring

theorem magnitude_strictMono : StrictMono f.magnitude := by
  apply strictMono_nat_of_lt_succ
  intro pattern
  obtain ⟨shift, significand, rfl, most, normal⟩ := f.exists_shifted pattern
  have behind : shift = 0 ∨ f.hidden ≤ significand + 1 := by omega
  rw [Nat.add_assoc, magnitude_shifted f (by omega) normal, magnitude_shifted f most behind]
  exact Nat.mul_lt_mul_of_pos_right (Nat.lt_succ_self significand) (Nat.two_pow_pos shift)

/-- Every scaled significand is the value of a pattern. -/
theorem exists_magnitude (shift : Nat) {significand : Nat} (most : significand ≤ 2 * f.hidden) :
    ∃ pattern, f.magnitude pattern = significand * 2 ^ shift := by
  induction shift generalizing significand with
  | zero => exact ⟨_, f.magnitude_shifted most (.inl rfl)⟩
  | succ shift ih =>
      by_cases normal : f.hidden ≤ significand
      · exact ⟨_, f.magnitude_shifted most (.inr normal)⟩
      · have twice : 2 * significand ≤ 2 * f.hidden := by omega
        obtain ⟨pattern, same⟩ := ih twice
        refine ⟨pattern, same.trans ?_⟩
        ring

/-- The value nearest to a count of units is the count, rounded to the bits of a significand. -/
theorem exists_rounded {units : Nat} (finite : f.ofRatio units 1 < f.infinity) :
    ∃ shift, f.magnitude (f.ofRatio units 1) = roundDiv units (2 ^ shift) * 2 ^ shift := by
  have most := f.roundDiv_log2_le units
  rw [ofRatio_whole] at finite ⊢
  generalize count : units.log2 - (f.precision - 1) = shift at finite most ⊢
  have normal : shift = 0 ∨ f.hidden ≤ roundDiv units (2 ^ shift) := by
    by_cases unscaled : shift = 0
    · exact .inl unscaled
    · have some : units ≠ 0 := by
        rintro rfl
        rw [Nat.log2_zero] at count
        omega
      have least : f.hidden * 2 ^ shift ≤ units := by
        rw [hidden, Nat.pow_eq, ← pow_add]
        exact (Nat.le_log2 some).mp (by omega)
      have quotient : f.hidden ≤ units / 2 ^ shift :=
        (Nat.le_div_iff_mul_le (Nat.two_pow_pos shift)).mpr least
      right
      rw [roundDiv]
      split <;> omega
  exact ⟨shift, by rw [Nat.min_eq_left (by omega), f.magnitude_shifted most normal]⟩

/-- What is nearest to a whole number is whole. -/
theorem one_dvd_magnitude {n : Nat} (finite : f.ofRatio (n * f.one) 1 < f.infinity) :
    f.one ∣ f.magnitude (f.ofRatio (n * f.one) 1) := by
  obtain ⟨shift, rounded⟩ := f.exists_rounded finite
  have one : f.one = 2 ^ f.unitExponent := rfl
  rw [rounded]
  by_cases coarse : f.unitExponent ≤ shift
  · exact Dvd.dvd.mul_left (Nat.pow_dvd_pow 2 coarse) _
  · obtain ⟨places, split⟩ : ∃ places, f.unitExponent = places + shift :=
      ⟨f.unitExponent - shift, by omega⟩
    -- a grid finer than that of the whole numbers leaves nothing to round
    have exact : n * f.one = n * 2 ^ places * 2 ^ shift := by
      rw [one, split, pow_add, Nat.mul_assoc]
    rw [exact, roundDiv_mul _ (Nat.two_pow_pos shift), ← exact]
    exact Nat.dvd_mul_left _ _

/-- A scaled significand that is not above a finite value is its own nearest value. -/
theorem magnitude_ofRatio {shift significand pattern : Nat} (most : significand ≤ 2 * f.hidden)
    (finite : pattern < f.infinity) (below : significand * 2 ^ shift ≤ f.magnitude pattern) :
    f.ofRatio (significand * 2 ^ shift) 1 < f.infinity ∧
      f.magnitude (f.ofRatio (significand * 2 ^ shift) 1) = significand * 2 ^ shift := by
  obtain ⟨other, same⟩ := f.exists_magnitude shift most
  rw [← same] at below ⊢
  have lower : other < f.infinity :=
    Nat.lt_of_le_of_lt (f.magnitude_strictMono.le_iff_le.mp below) finite
  rw [f.ofRatio_magnitude lower]
  exact ⟨lower, rfl⟩

/-- What is in front of the point of a value is a scaled significand again. -/
theorem exists_whole (pattern : Nat) : ∃ shift significand, significand ≤ 2 * f.hidden ∧
    f.magnitude pattern / f.one * f.one = significand * 2 ^ shift := by
  obtain ⟨shift, significand, rfl, most, normal⟩ := f.exists_shifted pattern
  have one : f.one = 2 ^ f.unitExponent := rfl
  rw [magnitude_shifted f (Nat.le_of_lt most) normal, one]
  by_cases whole : f.unitExponent ≤ shift
  · have divides : 2 ^ f.unitExponent ∣ significand * 2 ^ shift :=
      Dvd.dvd.mul_left (Nat.pow_dvd_pow 2 whole) significand
    exact ⟨shift, significand, Nat.le_of_lt most, Nat.div_mul_cancel divides⟩
  · obtain ⟨places, split⟩ : ∃ places, f.unitExponent = places + shift :=
      ⟨f.unitExponent - shift, by omega⟩
    have kept := Nat.div_mul_le_self significand (2 ^ places)
    refine ⟨shift, significand / 2 ^ places * 2 ^ places, by omega, ?_⟩
    rw [split, pow_add, Nat.mul_div_mul_right _ _ (Nat.two_pow_pos shift), Nat.mul_assoc]

theorem ofRatio_eq_zero_iff (finite : 0 < f.infinity) {units : Nat} :
    f.ofRatio units 1 = 0 ↔ units = 0 := by
  constructor
  · intro none
    rw [ofRatio_whole] at none
    have some := f.hidden_pos
    have shift : units.log2 - (f.precision - 1) = 0 := by
      by_contra shifted
      have more : 0 < (units.log2 - (f.precision - 1)) * f.hidden :=
        Nat.mul_pos (Nat.pos_of_ne_zero shifted) some
      omega
    have rounded : roundDiv units 1 = units := by simpa using roundDiv_mul units Nat.one_pos
    rw [shift, pow_zero, rounded] at none
    omega
  · rintro rfl
    have zero := f.ofRatio_magnitude finite
    rwa [f.magnitude_eq_zero_iff.mpr rfl] at zero

theorem infinity_lt_signBit : double.infinity < double.signBit := by decide

theorem one_pos : 0 < f.one := Nat.two_pow_pos f.unitExponent

end FloatFormat

end ScriptHost
