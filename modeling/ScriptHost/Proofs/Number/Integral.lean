import ScriptHost.Number.Binary64
import ScriptHost.Proofs.Number.Pattern

set_option autoImplicit false

namespace ScriptHost

namespace Binary64

open FloatFormat

/-- A number is its sign and its pattern without the sign. -/
theorem ofUnsigned_unsigned (x : Binary64) : ofUnsigned x.isNegative x.unsigned = x := by
  have bits : x.bits.toNat < 2 ^ 64 := UInt64.toNat_lt _
  have sign : double.signBit = 2 ^ 63 := by decide
  have restored : UInt64.ofNat x.bits.toNat = x.bits := UInt64.ofNat_toNat
  rw [ofUnsigned, isNegative, unsigned, sign]
  by_cases negative : 2 ^ 63 ≤ x.bits.toNat
  · have pattern : 2 ^ 63 + x.bits.toNat % 2 ^ 63 = x.bits.toNat := by omega
    rw [decide_eq_true negative, if_pos rfl, pattern, restored]
  · have pattern : x.bits.toNat % 2 ^ 63 = x.bits.toNat := by omega
    rw [decide_eq_false negative, if_neg (by simp), pattern, restored]

theorem unsigned_ofUnsigned (negative : Bool) {pattern : Nat} (below : pattern < double.signBit) :
    (ofUnsigned negative pattern).unsigned = pattern := by
  have sign : double.signBit = 2 ^ 63 := by decide
  rw [ofUnsigned, unsigned, UInt64.toNat_ofNat']
  rw [sign] at below ⊢
  cases negative with
  | true =>
      rw [if_pos rfl]
      omega
  | false =>
      rw [if_neg (by simp)]
      omega

theorem isNegative_ofUnsigned (negative : Bool) {pattern : Nat}
    (below : pattern < double.signBit) : (ofUnsigned negative pattern).isNegative = negative := by
  have sign : double.signBit = 2 ^ 63 := by decide
  rw [ofUnsigned, isNegative, UInt64.toNat_ofNat']
  rw [sign] at below ⊢
  cases negative with
  | true =>
      rw [if_pos rfl, decide_eq_true_iff]
      omega
  | false =>
      rw [if_neg (by simp), decide_eq_false_iff_not]
      omega

theorem unsigned_ofUnits (negative : Bool) (numerator denominator : Nat) :
    (ofUnits negative numerator denominator).unsigned = double.ofRatio numerator denominator :=
  unsigned_ofUnsigned _ (Nat.lt_of_le_of_lt (double.ofRatio_le_infinity _ _) infinity_lt_signBit)

/-- To round is to have a number. -/
theorem isNaN_ofUnits (negative : Bool) (numerator denominator : Nat) :
    (ofUnits negative numerator denominator).isNaN = false := by
  have most := double.ofRatio_le_infinity numerator denominator
  rw [isNaN, unsigned_ofUnits]
  exact decide_eq_false (by omega)

theorem isNaN_of_isFinite {x : Binary64} (finite : x.isFinite = true) : x.isNaN = false := by
  have below : x.unsigned < double.infinity := of_decide_eq_true finite
  exact decide_eq_false (by omega)

theorem isInfinite_of_isFinite {x : Binary64} (finite : x.isFinite = true) :
    x.isInfinite = false := by
  have below : x.unsigned < double.infinity := of_decide_eq_true finite
  exact beq_false_of_ne (by omega)

theorem isFinite_of_isInfinite {x : Binary64} (number : x.isNaN = false)
    (real : x.isInfinite = false) : x.isFinite = true := by
  rw [isNaN, decide_eq_false_iff_not] at number
  have other : x.unsigned ≠ double.infinity := beq_eq_false_iff_ne.mp real
  exact decide_eq_true (by omega)

theorem unsigned_neg (x : Binary64) : x.neg.unsigned = x.unsigned := by
  have sign : double.signBit = 2 ^ 63 := by decide
  rw [unsigned, unsigned, neg, UInt64.toNat_xor, sign, Nat.xor_mod_two_pow]
  exact Nat.xor_zero _

theorem isNegative_neg (x : Binary64) : x.neg.isNegative = !x.isNegative := by
  have bits : x.bits.toNat < 2 ^ 64 := UInt64.toNat_lt _
  have sign : double.signBit = 2 ^ 63 := by decide
  have turned : (x.bits.toNat ^^^ 2 ^ 63) / 2 ^ 63 = x.bits.toNat / 2 ^ 63 ^^^ 1 :=
    Nat.xor_div_two_pow
  have leading : x.bits.toNat / 2 ^ 63 = 0 ∨ x.bits.toNat / 2 ^ 63 = 1 := by omega
  rw [isNegative, isNegative, neg, UInt64.toNat_xor, sign]
  change decide (2 ^ 63 ≤ x.bits.toNat ^^^ 2 ^ 63) = _
  rcases leading with positive | negative
  · rw [positive] at turned
    have turned : (x.bits.toNat ^^^ 2 ^ 63) / 2 ^ 63 = 1 := turned
    rw [decide_eq_true (by omega), decide_eq_false (by omega)]
    rfl
  · rw [negative] at turned
    have turned : (x.bits.toNat ^^^ 2 ^ 63) / 2 ^ 63 = 0 := turned
    rw [decide_eq_false (by omega), decide_eq_true (by omega)]
    rfl

theorem signed_neg (x : Binary64) : x.neg.signed = -x.signed := by
  rw [signed, signed, isNegative_neg, magnitude, unsigned_neg, ← magnitude]
  cases x.isNegative <;> simp

theorem isFinite_neg (x : Binary64) : x.neg.isFinite = x.isFinite := by
  rw [isFinite, isFinite, unsigned_neg]

/-- Numbers are in the order of their signed magnitudes. -/
theorem rank_lt_iff (x y : Binary64) : x.rank < y.rank ↔ x.signed < y.signed := by
  have less : x.magnitude < y.magnitude ↔ x.unsigned < y.unsigned :=
    double.magnitude_strictMono.lt_iff_lt
  have more : y.magnitude < x.magnitude ↔ y.unsigned < x.unsigned :=
    double.magnitude_strictMono.lt_iff_lt
  have zeroX : x.magnitude = 0 ↔ x.unsigned = 0 := double.magnitude_eq_zero_iff
  have zeroY : y.magnitude = 0 ↔ y.unsigned = 0 := double.magnitude_eq_zero_iff
  rw [rank, rank, signed, signed]
  split <;> split <;> omega

theorem unsigned_ofSigned (zeroNegative : Bool) (units : Int) :
    (ofSigned zeroNegative units).unsigned = double.ofRatio units.natAbs 1 :=
  unsigned_ofUnits _ _ _

theorem exists_sub {x y : Binary64} (finite : x.isFinite = true) (finite' : y.isFinite = true) :
    ∃ zeroNegative, x.sub y = ofSigned zeroNegative (x.signed - y.signed) := by
  have opposite : y.neg.isFinite = true := by rw [isFinite_neg, finite']
  rw [sub, add, isNaN_of_isFinite finite, isNaN_of_isFinite finite', isNaN_of_isFinite opposite,
    isInfinite_of_isFinite finite, isInfinite_of_isFinite opposite, signed_neg,
    ← Int.sub_eq_add_neg]
  exact ⟨_, rfl⟩

/-- Different numbers have a difference. -/
theorem equal_ofSigned_zero_iff (zeroNegative : Bool) (units : Int) :
    (ofSigned zeroNegative units).equal zero = true ↔ units = 0 := by
  have pattern := unsigned_ofSigned zeroNegative units
  have number : (ofSigned zeroNegative units).isNaN = false := isNaN_ofUnits _ _ _
  have none : double.ofRatio units.natAbs 1 = 0 ↔ units.natAbs = 0 :=
    double.ofRatio_eq_zero_iff (by decide)
  have zeroRank : zero.rank = 0 := by decide
  have zeroNumber : zero.isNaN = false := by decide
  rw [equal, number, zeroNumber, zeroRank, rank, pattern]
  simp only [Bool.not_false, Bool.and_self, Bool.true_and, beq_iff_eq]
  split <;> omega

theorem natAbs_signed (x : Binary64) : x.signed.natAbs = x.magnitude := by
  rw [signed]
  split <;> omega

/-- The integer that a number is equal to, counted in units. -/
theorem toInt?_eq_some_iff {x : Binary64} {n : Int} :
    x.toInt? = some n ↔ x.isFinite = true ∧ x.signed = n * double.one := by
  have unit : (double.one : Int) ≠ 0 := Int.natCast_ne_zero.mpr double.one_pos.ne'
  have divides : x.magnitude % double.one = 0 ↔ (double.one : Int) ∣ x.signed := by
    rw [← natAbs_signed, ← Nat.dvd_iff_mod_eq_zero, ← Int.natAbs_dvd_natAbs, Int.natAbs_natCast]
  rw [toInt?]
  constructor
  · intro whole
    split at whole
    · rename_i exact
      rw [Bool.and_eq_true, beq_iff_eq, divides] at exact
      rw [← Option.some.inj whole, Int.ediv_mul_cancel exact.2]
      exact ⟨exact.1, rfl⟩
    · cases whole
  · rintro ⟨finite, units⟩
    have whole : x.magnitude % double.one = 0 := divides.mpr ⟨n, by rw [units, Int.mul_comm]⟩
    rw [finite, whole, units, Int.mul_ediv_cancel n unit]
    rfl

/-- In front of the point stands the whole quotient of units, which is a number of its own. -/
theorem trunc_spec {x : Binary64} (finite : x.isFinite = true) :
    x.trunc.isFinite = true ∧ x.trunc.signed = x.signed.tdiv double.one * double.one := by
  obtain ⟨shift, significand, most, whole⟩ := double.exists_whole x.unsigned
  have below : significand * 2 ^ shift ≤ double.magnitude x.unsigned := by
    rw [← whole]
    exact Nat.div_mul_le_self _ _
  obtain ⟨lower, same⟩ := double.magnitude_ofRatio most (of_decide_eq_true finite) below
  rw [← whole] at lower same
  have pattern := Nat.lt_trans lower infinity_lt_signBit
  have truncated : x.trunc = ofUnsigned x.isNegative
      (double.ofRatio (double.magnitude x.unsigned / double.one * double.one) 1) := by
    rw [trunc, if_pos finite]
    rfl
  rw [isFinite, signed, magnitude, truncated, unsigned_ofUnsigned _ pattern,
    isNegative_ofUnsigned _ pattern, same]
  refine ⟨decide_eq_true lower, ?_⟩
  rw [signed, magnitude]
  cases x.isNegative with
  | true =>
      rw [if_pos rfl, if_pos rfl, Int.neg_tdiv, ← Int.ofNat_tdiv]
      push_cast
      ring
  | false =>
      rw [if_neg (by simp), if_neg (by simp), ← Int.ofNat_tdiv]
      push_cast
      rfl

theorem fract_equal_zero_iff {x : Binary64} (finite : x.isFinite = true) :
    x.fract.equal zero = true ↔ ∃ n, x.toInt? = some n := by
  have unit : (double.one : Int) ≠ 0 := Int.natCast_ne_zero.mpr double.one_pos.ne'
  obtain ⟨truncated, front⟩ := trunc_spec finite
  obtain ⟨zeroNegative, difference⟩ := exists_sub finite truncated
  rw [fract, difference, equal_ofSigned_zero_iff, front, sub_eq_zero]
  constructor
  · intro units
    exact ⟨_, toInt?_eq_some_iff.mpr ⟨finite, units⟩⟩
  · rintro ⟨n, whole⟩
    rw [(toInt?_eq_some_iff.mp whole).2, Int.mul_tdiv_cancel n unit]

theorem isNaN_fract {x : Binary64} (other : ¬ x.isFinite = true) : x.fract.isNaN = true := by
  have same : x.trunc = x := by rw [trunc, if_neg other]
  rw [fract, same, sub]
  by_cases nan : x.isNaN = true
  · rw [nan, Bool.true_or, if_pos rfl, firstNaN, if_pos nan, nan]
  · have number : x.isNaN = false := Bool.eq_false_iff.mpr nan
    have opposite : x.neg.isNaN = false := by rw [isNaN, unsigned_neg, ← isNaN, number]
    have infinite : x.isInfinite = true := by
      by_contra real
      exact other (isFinite_of_isInfinite number (Bool.eq_false_iff.mpr real))
    have infiniteNeg : x.neg.isInfinite = true := by
      rw [isInfinite, unsigned_neg, ← isInfinite, infinite]
    have none : invalid.isNaN = true := by decide
    -- opposite infinities have no sum
    rw [add, number, opposite, infinite, infiniteNeg, isNegative_neg]
    cases x.isNegative <;> exact none

theorem unsigned_limit : limit.unsigned = (1084 + 2) * double.hidden := by decide

theorem isNaN_limit : limit.isNaN = false := by decide

theorem isFinite_limit : limit.isFinite = true := by decide

theorem magnitude_limit : limit.magnitude = wordLimit.natAbs * double.one := by
  have hidden : double.hidden = 2 ^ 52 := by decide
  have one : double.one = 2 ^ double.unitExponent := by rw [FloatFormat.one, Nat.pow_eq]
  have size : wordLimit.natAbs = 2 ^ 63 := by decide
  rw [magnitude, unsigned_limit, ← Nat.add_zero ((1084 + 2) * double.hidden),
    double.magnitude_normal 1085 double.hidden_pos, Nat.add_zero, hidden, one, size, ← pow_add,
    ← pow_add, double_unitExponent]

theorem signed_limit : limit.signed = wordLimit * double.one := by
  have sign : limit.isNegative = false := by decide
  rw [signed, sign, magnitude_limit]
  exact Int.natCast_mul _ _

theorem toInt?_limit : limit.toInt? = some wordLimit :=
  toInt?_eq_some_iff.mpr ⟨isFinite_limit, signed_limit⟩

theorem toInt?_neg_limit : limit.neg.toInt? = some (-wordLimit) :=
  toInt?_eq_some_iff.mpr ⟨isFinite_limit, by rw [signed_neg, signed_limit, Int.neg_mul]⟩

theorem within_limit_iff {x : Binary64} {n : Int} (whole : x.toInt? = some n) :
    (limit.neg.lessEqual x && x.less limit) = true ↔ -wordLimit ≤ n ∧ n < wordLimit := by
  obtain ⟨finite, units⟩ := toInt?_eq_some_iff.mp whole
  have unit : (0 : Int) < double.one := Int.natCast_pos.mpr double.one_pos
  have opposite : limit.neg.isNaN = false := isNaN_limit
  have below : x.rank < limit.rank ↔ n < wordLimit := by
    rw [rank_lt_iff, signed_limit, units, Int.mul_lt_mul_right unit]
  have above : limit.neg.rank ≤ x.rank ↔ -wordLimit ≤ n := by
    rw [← Int.not_lt, rank_lt_iff, signed_neg, signed_limit, units, ← Int.neg_mul,
      Int.mul_lt_mul_right unit, Int.not_lt]
  rw [lessEqual, less, isNaN_limit, opposite, isNaN_of_isFinite finite, Bool.and_eq_true]
  simp [below, above]

theorem toWord_of_word {x : Binary64} {n : Int} (whole : x.toInt? = some n)
    (least : -wordLimit ≤ n) (greatest : n < wordLimit) : x.toWord = n := by
  have unit : (double.one : Int) ≠ 0 := Int.natCast_ne_zero.mpr double.one_pos.ne'
  obtain ⟨finite, units⟩ := toInt?_eq_some_iff.mp whole
  rw [toWord, isNaN_of_isFinite finite, isInfinite_of_isFinite finite, units,
    Int.mul_tdiv_cancel n unit]
  simp only [Bool.false_eq_true, if_false]
  omega

/-- The comparisons let exactly the words pass, and no word is changed by the cast. -/
theorem integral_eq_some_iff {x : Binary64} {n : Int} :
    x.integral = some n ↔ x.toInt? = some n ∧ -wordLimit ≤ n ∧ n < wordLimit := by
  -- the equation of a definition that is kept from unfolding is slow to make
  delta integral
  rw [Bool.and_assoc]
  constructor
  · intro done
    split at done
    · rename_i holds
      rw [Bool.and_eq_true] at holds
      obtain ⟨zeroFract, within⟩ := holds
      by_cases finite : x.isFinite = true
      · obtain ⟨m, whole⟩ := (fract_equal_zero_iff finite).mp zeroFract
        obtain ⟨least, greatest⟩ := (within_limit_iff whole).mp within
        rw [toWord_of_word whole least greatest] at done
        obtain rfl : m = n := Option.some.inj done
        exact ⟨whole, least, greatest⟩
      · rw [equal, isNaN_fract finite] at zeroFract
        cases zeroFract
    · cases done
  · rintro ⟨whole, least, greatest⟩
    obtain ⟨finite, -⟩ := toInt?_eq_some_iff.mp whole
    have zeroFract := (fract_equal_zero_iff finite).mpr ⟨n, whole⟩
    have within := (within_limit_iff whole).mpr ⟨least, greatest⟩
    rw [if_pos (Bool.and_eq_true_iff.mpr ⟨zeroFract, within⟩),
      toWord_of_word whole least greatest]

/-- A number without the sign of a zero. -/
def unsignZero (x : Binary64) : Binary64 := if x.unsigned = 0 then zero else x

/-- A number equal to an integer has that integer's sign and its magnitude in units. -/
theorem of_toInt? {x : Binary64} {n : Int} (whole : x.toInt? = some n) :
    x.unsigned < double.infinity ∧ x.magnitude = n.natAbs * double.one ∧
      (n ≠ 0 → (x.isNegative = true ↔ n < 0)) := by
  have unit : (0 : Int) < double.one := Int.natCast_pos.mpr double.one_pos
  obtain ⟨finite, units⟩ := toInt?_eq_some_iff.mp whole
  refine ⟨of_decide_eq_true finite, ?_, fun some => ?_⟩
  · rw [← natAbs_signed, units, Int.natAbs_mul, Int.natAbs_natCast]
  · have below : n * double.one < 0 * double.one ↔ n < 0 := Int.mul_lt_mul_right unit
    have above : 0 * double.one < n * double.one ↔ 0 < n := Int.mul_lt_mul_right unit
    rw [Int.zero_mul, ← units, signed] at below above
    cases sign : x.isNegative with
    | true =>
        rw [sign, if_pos rfl] at above
        simp only [true_iff]
        omega
    | false =>
        rw [sign, if_neg (by simp)] at below
        simp only [Bool.false_eq_true, false_iff]
        omega

/-- The number made of the integer that a number is equal to. -/
theorem ofInt_of_toInt? {x : Binary64} {n : Int} (whole : x.toInt? = some n) :
    ofInt n = x.unsignZero := by
  obtain ⟨finite, units, sign⟩ := of_toInt? whole
  rw [ofInt, ofUnits, ← units, magnitude, double.ofRatio_magnitude finite, unsignZero]
  by_cases zeroes : x.unsigned = 0
  · have none : n = 0 := by
      rw [magnitude, zeroes, double.magnitude_eq_zero_iff.mpr rfl, eq_comm,
        Nat.mul_eq_zero] at units
      have unit := double.one_pos
      omega
    rw [if_pos zeroes, zeroes, none]
    rfl
  · have some : n ≠ 0 := by
      rintro rfl
      rw [Int.natAbs_zero, Nat.zero_mul, magnitude, double.magnitude_eq_zero_iff] at units
      exact zeroes units
    have same : decide (n < 0) = x.isNegative := by
      rw [Bool.eq_iff_iff, decide_eq_true_iff, sign some]
    rw [if_neg zeroes, same, ofUnsigned_unsigned]

theorem toInt?_of_zero {x : Binary64} (zeroes : x.unsigned = 0) : x.toInt? = some 0 := by
  have units : x.magnitude = 0 := by
    rw [magnitude, zeroes]
    exact double.magnitude_eq_zero_iff.mpr rfl
  have finite : x.isFinite = true := by
    rw [isFinite, zeroes]
    decide
  have signless : x.signed = 0 := by
    rw [signed, units]
    split <;> rfl
  rw [toInt?, finite, units, signless, Nat.zero_mod, Int.zero_ediv]
  rfl

theorem isWord_iff {n : Int} : isWord n = true ↔ -wordLimit ≤ n ∧ n < wordLimit := by
  rw [isWord, Bool.and_eq_true, decide_eq_true_iff, decide_eq_true_iff]

/-- The integer a number is equal to counts if it is a word. -/
theorem integral_eq (x : Binary64) : x.integral = x.toInt?.filter isWord := by
  ext n
  rw [integral_eq_some_iff, Option.filter_eq_some_iff, isWord_iff]

theorem integral_eq_some {x : Binary64} {n : Int} (whole : x.integral = some n) :
    x.toInt? = some n ∧ -wordLimit ≤ n ∧ n < wordLimit :=
  integral_eq_some_iff.mp whole

theorem ofInt_of_integral {x : Binary64} {n : Int} (whole : x.integral = some n) :
    ofInt n = x.unsignZero :=
  ofInt_of_toInt? (integral_eq_some whole).1

theorem integral_of_zero {x : Binary64} (zeroes : x.unsigned = 0) : x.integral = some 0 :=
  integral_eq_some_iff.mpr ⟨toInt?_of_zero zeroes, by decide, by decide⟩

/-- Zeros are integers, so what is none has no sign to lose. -/
theorem unsignZero_of_integral_eq_none {x : Binary64} (none : x.integral = none) :
    x.unsignZero = x := by
  rw [unsignZero, if_neg]
  intro zeroes
  rw [integral_of_zero zeroes] at none
  cases none

theorem integral_unsignZero (x : Binary64) : x.unsignZero.integral = x.integral := by
  rw [unsignZero]
  split
  · rename_i zeroes
    rw [integral_of_zero zeroes, integral_of_zero rfl]
  · rfl

theorem integral_of_not_isFinite {x : Binary64} (other : ¬ x.isFinite = true) :
    x.integral = none := by
  cases whole : x.integral with
  | none => rfl
  | some n => exact absurd (decide_eq_true (of_toInt? (integral_eq_some whole).1).1) other

theorem isNaN_unsignZero (x : Binary64) : x.unsignZero.isNaN = x.isNaN := by
  rw [unsignZero]
  split
  · rename_i zeroes
    rw [isNaN, isNaN, zeroes]
    rfl
  · rfl

theorem equal_self {x : Binary64} (number : x.isNaN = false) : x.equal x = true := by
  simp [equal, number]

/-- A zero without its sign is the same number. -/
theorem equal_unsignZero {x : Binary64} (number : x.isNaN = false) :
    x.equal x.unsignZero = true := by
  rw [unsignZero]
  split
  · rename_i zeroes
    have rankZero : zero.rank = 0 := by decide
    have notNaN : zero.isNaN = false := by decide
    rw [equal, number, notNaN, rankZero, rank, zeroes]
    simp
  · exact equal_self number

theorem unsigned_ofInt (n : Int) : (ofInt n).unsigned = double.ofRatio (n.natAbs * double.one) 1 :=
  unsigned_ofUnits _ _ _

theorem isNaN_ofInt (n : Int) : (ofInt n).isNaN = false := isNaN_ofUnits _ _ _

/-- An integer within a word, with a sign or without one, is not too large for a number. -/
theorem isFinite_ofInt {n : Int} (least : -0x8000000000000000 ≤ n)
    (greatest : n < 0x10000000000000000) : (ofInt n).isFinite = true := by
  have word : n.natAbs < 2 ^ 64 := by omega
  have most : double.ofRatio (n.natAbs * double.one) 1 ≤ (1085 + 2) * double.hidden :=
    double.ofRatio_natural_le word (by decide)
  have finite : (1085 + 2) * double.hidden < double.infinity := by decide
  rw [isFinite, unsigned_ofInt]
  exact decide_eq_true (Nat.lt_of_le_of_lt most finite)

theorem exists_toInt?_ofInt {n : Int} (finite : (ofInt n).isFinite = true) :
    ∃ m, (ofInt n).toInt? = some m := by
  have below : double.ofRatio (n.natAbs * double.one) 1 < double.infinity := by
    rw [← unsigned_ofInt]
    exact of_decide_eq_true finite
  have divides : double.one ∣ (ofInt n).magnitude := by
    rw [magnitude, unsigned_ofInt]
    exact double.one_dvd_magnitude below
  rw [toInt?, finite, Nat.mod_eq_zero_of_dvd divides]
  exact ⟨_, rfl⟩

/-- A word is nearest to a number that is equal to a word, or else to the limit of words. -/
theorem ofInt_eq_limit {n : Int} (word : isWord n = true) (none : (ofInt n).integral = none) :
    ofInt n = limit := by
  obtain ⟨least, greatest⟩ := isWord_iff.mp word
  have other : n ≠ -wordLimit := by
    rintro rfl
    rw [ofInt_of_toInt? toInt?_neg_limit, integral_unsignZero, integral_eq,
      toInt?_neg_limit] at none
    cases none
  have size : wordLimit = 2 ^ 63 := rfl
  have natural : n.natAbs < 2 ^ 63 := by omega
  have finite : (ofInt n).isFinite = true := isFinite_ofInt (by omega) (by omega)
  obtain ⟨m, whole⟩ := exists_toInt?_ofInt finite
  obtain ⟨-, units, -⟩ := of_toInt? whole
  have most : m.natAbs ≤ wordLimit.natAbs := by
    have pattern : (ofInt n).unsigned ≤ limit.unsigned := by
      rw [unsigned_ofInt, unsigned_limit]
      exact double.ofRatio_natural_le natural (by decide)
    apply Nat.le_of_mul_le_mul_right _ double.one_pos
    rw [← units, ← magnitude_limit]
    exact double.magnitude_strictMono.monotone pattern
  have outside : m = wordLimit := by
    have no : ¬ isWord m = true := by
      intro inside
      rw [integral_eq, whole, Option.filter_some, if_pos inside] at none
      cases none
    rw [isWord_iff] at no
    omega
  rw [← unsignZero_of_integral_eq_none none, ← ofInt_of_toInt? whole, outside,
    ofInt_of_toInt? toInt?_limit]
  decide

end Binary64

end ScriptHost
