import ScriptHost.Number.Reading
import ScriptHost.Proofs.Number.Decimal
import ScriptHost.Proofs.Number.Layout
import ScriptHost.Text.Digit

set_option autoImplicit false

namespace ScriptHost

open Decimal FloatFormat

namespace Binary64

/-- Digits end where something else goes on. -/
theorem span_digits {front : List Char} (digits : ∀ c ∈ front, c.isDigit = true)
    (rest : List Char) (stops : ∀ c ∈ rest.head?, c.isDigit = false) :
    (front ++ rest).takeWhile Char.isDigit = front ∧
      (front ++ rest).dropWhile Char.isDigit = rest := by
  rw [List.takeWhile_append_of_pos digits, List.dropWhile_append_of_pos digits]
  cases rest with
  | nil => simp
  | cons c rest =>
      have stop : c.isDigit = false := stops c rfl
      simp [stop]

theorem digitsOf_eq (text : List Char) : digitsOf text = Nat.ofDigitChars 10 text 0 := rfl

theorem numeralOf?_digits {front : List Char} (digits : ∀ c ∈ front, c.isDigit = true)
    (some : front ≠ []) : numeralOf? front = .some ⟨Nat.ofDigitChars 10 front 0, 0⟩ := by
  obtain ⟨taken, dropped⟩ := span_digits digits [] (by simp)
  rw [List.append_nil] at taken dropped
  simp [numeralOf?, taken, dropped, some, exponentOf?, digitsOf_eq]

theorem numeralOf?_point {front places : List Char}
    (digits : ∀ c ∈ front ++ places, c.isDigit = true) (some : front ≠ []) :
    numeralOf? (front ++ '.' :: places) =
      .some ⟨Nat.ofDigitChars 10 (front ++ places) 0, -(places.length : Int)⟩ := by
  obtain ⟨inFront, inPlaces⟩ := List.forall_mem_append.mp digits
  obtain ⟨taken, dropped⟩ := span_digits inFront ('.' :: places) (by simp)
  obtain ⟨taken', dropped'⟩ := span_digits inPlaces [] (by simp)
  rw [List.append_nil] at taken' dropped'
  simp [numeralOf?, taken, dropped, taken', dropped', some, exponentOf?, digitsOf_eq]

/-- A numeral without an exponent is read as one of the same value. -/
theorem exists_numeralOf?_plain {d : Decimal} (some : d.coefficient ≠ 0) :
    ∃ front rest other, d.text .plain = front ++ rest ∧ front ≠ [] ∧
      (∀ c ∈ front, c.isDigit = true) ∧ numeralOf? (d.text .plain) = .some other ∧
        double.ofDecimal other = double.ofDecimal d := by
  have positional : d.text .plain = d.positional "" := rfl
  rw [positional]
  by_cases whole : 0 ≤ d.exponent
  · have digits := isDigit_of_mem_filled d d.exponent.toNat
    have front : d.digits ++ List.replicate d.exponent.toNat '0' ≠ [] := by
      simp [Decimal.digits, Nat.toDigits_ne_nil]
    have shift := ofDecimal_shift d.coefficient d.exponent d.exponent.toNat
    have power : d.exponent - (d.exponent.toNat : Int) = 0 := by omega
    rw [power] at shift
    refine ⟨_, _, _, positional_of_whole whole "", front, digits, ?_, shift⟩
    have suffix : "".toList = [] := rfl
    rw [positional_of_whole whole, suffix, List.append_nil, numeralOf?_digits digits front,
      ofDigitChars_filled]
  · obtain ⟨front, places, text, pointed⟩ := exists_pointed some (Int.not_le.mp whole) ""
    have begun : front ≠ [] := by
      rcases pointed.begins with rfl | ⟨c, more, rfl, -⟩ <;> exact List.cons_ne_nil _ _
    refine ⟨front, _, d, text, begun, (List.forall_mem_append.mp pointed.digits).1, ?_, rfl⟩
    rw [text, numeralOf?_point pointed.digits begun, pointed.coefficient, pointed.exponent]

theorem toLower_of_isDigit {c : Char} (digit : c.isDigit = true) : c.toLower = c := by
  have greatest : c.toNat ≤ 57 := (Char.isDigit_iff_toNat.mp digit).2
  have other : ¬ (c.val ≥ 'A'.val ∧ c.val ≤ 'Z'.val) := by
    rintro ⟨upper, -⟩
    have letter : 65 ≤ c.toNat := UInt32.le_iff_toNat_le.mp upper
    omega
  exact dif_neg other

/-- What begins with a digit is no name. -/
theorem ofList_ne_of_isDigit {c : Char} (digit : c.isDigit = true) (rest : List Char)
    {name : String} (letter : ∀ first ∈ name.toList.head?, first.isDigit = false) :
    String.ofList ((c :: rest).map Char.toLower) ≠ name := by
  rintro rfl
  rw [String.toList_ofList, List.map_cons, toLower_of_isDigit digit] at letter
  rw [letter c rfl] at digit
  cases digit

theorem ofText?_signed {front : List Char} (digits : ∀ c ∈ front, c.isDigit = true)
    (some : front ≠ []) (rest : List Char) (negative : Bool) :
    ofText? ((if negative then ['-'] else []) ++ (front ++ rest)) =
      (numeralOf? (front ++ rest)).map (ofDecimal negative) := by
  obtain ⟨c, more, rfl⟩ := List.exists_cons_of_ne_nil some
  have digit : c.isDigit = true := digits c List.mem_cons_self
  have inf : String.ofList ((c :: (more ++ rest)).map Char.toLower) ≠ "inf" :=
    ofList_ne_of_isDigit digit _ (by simp)
  have infinity : String.ofList ((c :: (more ++ rest)).map Char.toLower) ≠ "infinity" :=
    ofList_ne_of_isDigit digit _ (by simp)
  have nan : String.ofList ((c :: (more ++ rest)).map Char.toLower) ≠ "nan" :=
    ofList_ne_of_isDigit digit _ (by simp)
  rw [List.cons_append]
  cases negative with
  | true =>
      simp only [ofText?, if_true, List.singleton_append, inf, infinity, nan, if_false, or_self]
  | false =>
      have plus (more' : List Char) : c :: (more ++ rest) ≠ '+' :: more' := by
        rintro ⟨⟩
        exact absurd digit (by decide)
      have minus (more' : List Char) : c :: (more ++ rest) ≠ '-' :: more' := by
        rintro ⟨⟩
        exact absurd digit (by decide)
      rw [if_neg (by simp), List.nil_append, ofText?]
      · simp only [inf, infinity, nan, if_false, or_self]
      · exact plus
      · exact minus

/-- A finite number is read back from its shortest text without an exponent. -/
theorem ofText?_shortestText {x : Binary64} (finite : x.isFinite = true) :
    ofText? (x.shortestText .plain) = some x := by
  have below : x.unsigned < double.infinity := of_decide_eq_true finite
  obtain ⟨front, rest, numeral, text, begun, digits, read, value⟩ : ∃ front rest numeral,
      double.shortestText .plain x.unsigned = front ++ rest ∧ front ≠ [] ∧
        (∀ c ∈ front, c.isDigit = true) ∧
          numeralOf? (double.shortestText .plain x.unsigned) = some numeral ∧
            double.ofDecimal numeral = x.unsigned := by
    rw [FloatFormat.shortestText]
    by_cases zero : x.unsigned = 0
    · have text : (⟨0, 0⟩ : Decimal).text .plain = ['0'] := by decide
      have digits : ∀ c ∈ ['0'], c.isDigit = true := by simp
      rw [if_pos zero, text, zero]
      exact ⟨['0'], [], _, rfl, by simp, digits, numeralOf?_digits digits (by simp), rfl⟩
    · have value := ofDecimal_shortest below
      have some := coefficient_ne_zero (value.symm ▸ zero)
      rw [if_neg zero]
      obtain ⟨front, rest, other, text, begun, digits, read, same⟩ := exists_numeralOf?_plain some
      exact ⟨front, rest, other, text, begun, digits, read, same.trans value⟩
  rw [Binary64.shortestText, signText]
  rw [text] at read ⊢
  rw [ofText?_signed digits begun, read, Option.map_some, ofDecimal, value, ofUnsigned_unsigned]

/-- Every number but NaN is read back from its plain text. -/
theorem ofText?_plainText {x : Binary64} (number : x.isNaN = false) :
    ofText? x.plainText.toList = some x := by
  rw [plainText, number, if_neg (by simp)]
  by_cases infinite : x.isInfinite = true
  · have pattern : x.unsigned = double.infinity := by simpa [isInfinite] using infinite
    have same : infinity x.isNegative = x := by rw [infinity, ← pattern, ofUnsigned_unsigned]
    have read (negative : Bool) : ofText? ((if negative then ['-'] else []) ++ "inf".toList) =
        some (infinity negative) := by
      cases negative <;> rfl
    rw [if_pos infinite, String.toList_ofList, signText, read, same]
  · have finite := isFinite_of_isInfinite number (Bool.eq_false_iff.mpr infinite)
    rw [if_neg infinite, String.toList_ofList, ofText?_shortestText finite]

theorem plainText_injective {x y : Binary64} (number : x.isNaN = false) (number' : y.isNaN = false)
    (same : x.plainText = y.plainText) : x = y := by
  have read := ofText?_plainText number
  rw [same, ofText?_plainText number', Option.some.injEq] at read
  exact read.symm

theorem toList_toString (n : Int) : (toString n).toList = decimalText n := by
  cases n with
  | ofNat n =>
      have text : toString (Int.ofNat n) = n.repr := rfl
      rw [text, Nat.toList_repr, decimalText]
      simp
  | negSucc n =>
      have text : toString (Int.negSucc n) = "-" ++ (n + 1).repr := rfl
      rw [text, String.toList_append, Nat.toList_repr, decimalText, if_pos (Int.negSucc_lt_zero n)]
      rfl

theorem sign_mem_decimalText {n : Int} : '-' ∈ decimalText n ↔ n < 0 := by
  have digits : '-' ∉ Nat.toDigits 10 n.natAbs := by
    intro member
    exact absurd (isDigit_of_mem_digits _ member) (by decide)
  rw [decimalText]
  by_cases negative : n < 0 <;> simp [negative, digits]

theorem toString_int_injective {m n : Int} (same : toString m = toString n) : m = n := by
  have texts : decimalText m = decimalText n := by
    rw [← toList_toString, ← toList_toString, same]
  have signs : m < 0 ↔ n < 0 := by
    rw [← sign_mem_decimalText, texts, sign_mem_decimalText]
  rw [decimalText, decimalText, if_congr signs rfl rfl, List.append_cancel_left_eq] at texts
  have sizes : m.natAbs = n.natAbs := by
    rw [← Nat.ofDigitChars_ten_toDigits (n := m.natAbs), texts, Nat.ofDigitChars_ten_toDigits]
  omega

/-- The text of an integer is read as the number nearest to it. -/
theorem ofText?_toString (n : Int) : ofText? (toString n).toList = some (ofInt n) := by
  have digits : ∀ c ∈ Nat.toDigits 10 n.natAbs, c.isDigit = true := isDigit_of_mem_digits
  have begun : Nat.toDigits 10 n.natAbs ≠ [] := Nat.toDigits_ne_nil
  have nearest : ofDecimal (n < 0) ⟨n.natAbs, 0⟩ = ofInt n := by
    rw [ofDecimal_eq_ofUnits, ofInt, unitsOf, divisorOf]
    simp
  have read := ofText?_signed digits begun [] (n < 0)
  rw [List.append_nil, numeralOf?_digits digits begun, Nat.ofDigitChars_ten_toDigits,
    Option.map_some, nearest] at read
  rw [toList_toString, decimalText]
  simpa using read

theorem plainText_limit : limit.plainText = toString (9223372036854776000 : Int) := by
  decide +kernel

/-- A number that is no word has the text of none: of all numbers that are nearest to a word, only
the limit is not equal to one, and its text spells an integer past it. -/
theorem plainText_ne_toString {x : Binary64} (number : x.isNaN = false) (other : x.integral = none)
    {n : Int} (word : isWord n = true) : x.plainText ≠ toString n := by
  intro same
  have nearest : x = ofInt n := by
    have read := ofText?_plainText number
    rw [same, ofText?_toString, Option.some.injEq] at read
    exact read.symm
  rw [nearest] at other
  rw [nearest, ofInt_eq_limit word other, plainText_limit] at same
  rw [← toString_int_injective same] at word
  exact absurd word (by decide)

end Binary64

end ScriptHost
