import ScriptHost.Proofs.Json.RoundTrip
import ScriptHost.Proofs.Number.Decimal
import ScriptHost.Proofs.Number.Layout

set_option autoImplicit false

namespace ScriptHost.Json

open Decimal

theorem isDigit_ofNat {c : Char} (digit : c.isDigit = true) :
    isDigit (UInt8.ofNat c.toNat) = true ∧ digitValue (UInt8.ofNat c.toNat) = c.toNat - 48 := by
  have least : 48 ≤ c.toNat := (Char.isDigit_iff_toNat.mp digit).1
  have greatest : c.toNat ≤ 57 := (Char.isDigit_iff_toNat.mp digit).2
  have bytes : ∀ n < 58, 48 ≤ n →
      isDigit (UInt8.ofNat n) = true ∧ digitValue (UInt8.ofNat n) = n - 48 := by decide
  exact bytes c.toNat (by omega) least

/-- Bytes that are digits. -/
def Digits (bytes : List UInt8) : Prop := ∀ byte ∈ bytes, isDigit byte = true

theorem digits_ascii {text : List Char} (digits : ∀ c ∈ text, c.isDigit = true) :
    Digits (ascii text) := by
  intro byte member
  obtain ⟨c, inside, rfl⟩ := List.mem_map.mp member
  exact (isDigit_ofNat (digits c inside)).1

theorem digitsValue_ascii {text : List Char} (digits : ∀ c ∈ text, c.isDigit = true)
    (leading : Nat) : digitsValue leading (ascii text) = Nat.ofDigitChars 10 text leading := by
  induction text generalizing leading with
  | nil => rfl
  | cons c text ih =>
      obtain ⟨first, others⟩ := List.forall_mem_cons.mp digits
      have step : digitsValue leading (ascii (c :: text)) =
          digitsValue (10 * leading + digitValue (UInt8.ofNat c.toNat)) (ascii text) := rfl
      rw [step, ih others, (isDigit_ofNat first).2, Nat.ofDigitChars_cons]
      rfl

theorem le_digitsValue (leading : Nat) (digits : List UInt8) :
    leading ≤ digitsValue leading digits := by
  induction digits generalizing leading with
  | nil => exact le_rfl
  | cons byte digits ih =>
      have behind : 10 * leading + digitValue byte ≤ digitsValue leading (byte :: digits) :=
        ih (10 * leading + digitValue byte)
      omega

/-- What does not go on with a digit. -/
def Stops (rest : List UInt8) : Prop := ∀ byte ∈ rest.head?, isDigit byte = false

theorem stops_of_ends {rest : List UInt8} (ends : Ends rest) : Stops rest := by
  intro byte member
  rcases ends byte member with rfl | rfl | rfl <;> rfl

theorem takeWhile_digits {digits rest : List UInt8} (all : Digits digits) (stops : Stops rest) :
    (digits ++ rest).takeWhile isDigit = digits ∧ (digits ++ rest).dropWhile isDigit = rest := by
  rw [List.takeWhile_append_of_pos all, List.dropWhile_append_of_pos all]
  cases rest with
  | nil => simp
  | cons byte rest =>
      have stop : isDigit byte = false := stops byte rfl
      simp [stop]

/-- The digits in front of a number: a zero alone, or more that do not begin with one. -/
def Whole (digits : List UInt8) : Prop :=
  digits = [48] ∨ ∃ byte more, digits = byte :: more ∧ byte ≠ 48 ∧ Digits digits

theorem number_of_whole {digits rest : List UInt8} (whole : Whole digits) (stops : Stops rest)
    (negative : Bool) :
    number negative (digits ++ rest) = numberTail negative (digitsValue 0 digits) rest := by
  rcases whole with rfl | ⟨byte, more, rfl, some, all⟩
  · cases rest with
    | nil => rfl
    | cons next rest =>
        have stop : isDigit next = false := stops next rfl
        simp [number, stop, digitsValue, digitValue]
  · obtain ⟨first, others⟩ := List.forall_mem_cons.mp all
    obtain ⟨taken, dropped⟩ := takeWhile_digits others stops
    have begun : digitsValue (digitValue byte) more = digitsValue 0 (byte :: more) := by
      simp [digitsValue]
    show number negative (byte :: (more ++ rest)) = _
    simp only [number, if_neg some, if_pos first, taken, dropped, begun]

theorem exponentDigits_append {digits rest : List UInt8} (all : Digits digits) (stops : Stops rest)
    {leading : Nat} (small : digitsValue leading digits ≤ exponentLimit) :
    exponentDigits leading (digits ++ rest) = (some (digitsValue leading digits), rest) := by
  induction digits generalizing leading with
  | nil =>
      cases rest with
      | nil => rfl
      | cons byte rest =>
          have stop : isDigit byte = false := stops byte rfl
          simp [exponentDigits, stop, digitsValue]
  | cons byte digits ih =>
      obtain ⟨first, others⟩ := List.forall_mem_cons.mp all
      have step : digitsValue leading (byte :: digits) =
          digitsValue (10 * leading + digitValue byte) digits := rfl
      have below := le_digitsValue (10 * leading + digitValue byte) digits
      rw [step] at small ⊢
      rw [List.cons_append, exponentDigits, if_pos first]
      simp only [if_neg (show ¬ exponentLimit < 10 * leading + digitValue byte by omega)]
      exact ih others small

/-- An exponent with a sign. -/
def signedExponent (downward : Bool) (size : Nat) : Int := if downward then -(size : Int) else size

theorem exponentPart_append {digits rest : List UInt8} (all : Digits digits) (some : digits ≠ [])
    (stops : Stops rest) (small : digitsValue 0 digits ≤ exponentLimit) (negative : Bool)
    (coefficient places : Nat) (downward : Bool) :
    exponentPart negative coefficient places
        ((if downward then 45 else 43) :: (digits ++ rest)) =
      floating negative ⟨coefficient, signedExponent downward (digitsValue 0 digits) - places⟩
        rest := by
  cases digits with
  | nil => exact absurd rfl some
  | cons first more =>
      obtain ⟨digit, others⟩ := List.forall_mem_cons.mp all
      have begun : digitsValue (digitValue first) more = digitsValue 0 (first :: more) := by
        simp [digitsValue]
      rw [← begun] at small
      have exponent := exponentDigits_append others stops small
      cases downward <;>
        simp [exponentPart, digit, exponent, begun, signedExponent]

/-- Behind a point and decimal places a number ends. -/
theorem numberTail_point {places rest : List UInt8} (all : Digits places) (some : places ≠ [])
    (ends : Ends rest) (negative : Bool) (n : Nat) :
    numberTail negative n (46 :: (places ++ rest)) =
      floating negative ⟨digitsValue n places, -(places.length : Int)⟩ rest := by
  obtain ⟨taken, dropped⟩ := takeWhile_digits all (stops_of_ends ends)
  simp only [numberTail, if_true, taken, dropped, List.isEmpty_iff, if_neg some]
  cases rest with
  | nil => rfl
  | cons byte rest =>
      have unmarked : isExponentMark byte = false := by
        rcases ends byte rfl with rfl | rfl | rfl <;> rfl
      simp [unmarked]

/-- Or it goes on with an exponent. -/
theorem numberTail_point_exponent {places : List UInt8} (all : Digits places) (some : places ≠ [])
    (rest : List UInt8) (negative : Bool) (n : Nat) :
    numberTail negative n (46 :: (places ++ 101 :: rest)) =
      exponentPart negative (digitsValue n places) places.length rest := by
  have stops : Stops (101 :: rest) := by simp [Stops, isDigit]
  obtain ⟨taken, dropped⟩ := takeWhile_digits all stops
  simp only [numberTail, if_true, taken, dropped, List.isEmpty_iff, if_neg some]
  rfl

theorem numberTail_exponent (rest : List UInt8) (negative : Bool) (n : Nat) :
    numberTail negative n (101 :: rest) = exponentPart negative n 0 rest := rfl

theorem ascii_append (first second : List Char) :
    ascii (first ++ second) = ascii first ++ ascii second := List.map_append

theorem digitsValue_toDigits (n : Nat) : digitsValue 0 (ascii (Nat.toDigits 10 n)) = n := by
  rw [digitsValue_ascii isDigit_of_mem_digits, Nat.ofDigitChars_ten_toDigits]

theorem ofNat_toNat_ne {c : Char} (digit : c.isDigit = true) (nonzero : c ≠ '0') :
    UInt8.ofNat c.toNat ≠ 48 := by
  intro same
  have value := (isDigit_ofNat digit).2
  have least : 48 ≤ c.toNat := (Char.isDigit_iff_toNat.mp digit).1
  have zero : digitValue 48 = 0 := rfl
  rw [same, zero] at value
  have code : c.toNat = '0'.toNat := by
    show c.toNat = 48
    omega
  exact nonzero (Char.toNat_inj.mp code)

/-- Digits that do not begin with a zero, and more of them. -/
theorem whole_of_cons {c : Char} {text : List Char} (digits : ∀ d ∈ c :: text, d.isDigit = true)
    (nonzero : c ≠ '0') : Whole (ascii (c :: text)) :=
  .inr ⟨UInt8.ofNat c.toNat, ascii text, rfl, ofNat_toNat_ne (digits c (by simp)) nonzero,
    digits_ascii digits⟩

theorem whole_toDigits (n : Nat) : Whole (ascii (Nat.toDigits 10 n)) := by
  by_cases zero : n = 0
  · rw [zero]
    exact .inl rfl
  · obtain ⟨c, rest, digits, nonzero⟩ := toDigits_eq_cons zero
    have all := isDigit_of_mem_digits (n := n)
    rw [digits] at all ⊢
    exact whole_of_cons all nonzero

section Numeral

variable {rest : List UInt8}

theorem number_point {front places : List Char}
    (digits : ∀ c ∈ front ++ places, c.isDigit = true) (whole : Whole (ascii front))
    (some : places ≠ []) (ends : Ends rest) (negative : Bool) :
    number negative (ascii (front ++ '.' :: places) ++ rest) =
      floating negative ⟨Nat.ofDigitChars 10 (front ++ places) 0, -(places.length : Int)⟩ rest := by
  obtain ⟨inFront, inPlaces⟩ := List.forall_mem_append.mp digits
  have text : ascii (front ++ '.' :: places) ++ rest =
      ascii front ++ 46 :: (ascii places ++ rest) := by
    simp [ascii]
  rw [text, number_of_whole whole (by simp [Stops, isDigit]),
    numberTail_point (digits_ascii inPlaces) (by simpa [ascii] using some) ends,
    digitsValue_ascii inFront, digitsValue_ascii inPlaces, ← Nat.ofDigitChars_append, ascii,
    List.length_map]

/-- An exponent with its sign and its digits. -/
def exponentText (downward : Bool) (size : Nat) : List Char :=
  'e' :: (if downward then '-' else '+') :: Nat.toDigits 10 size

theorem exponentPart_text {size : Nat} (small : size ≤ exponentLimit) (ends : Ends rest)
    (negative : Bool) (coefficient places : Nat) (downward : Bool) :
    exponentPart negative coefficient places
        (ascii (exponentText downward size).tail ++ rest) =
      floating negative ⟨coefficient, signedExponent downward size - places⟩ rest := by
  have text : ascii (exponentText downward size).tail ++ rest =
      (if downward then 45 else 43) :: (ascii (Nat.toDigits 10 size) ++ rest) := by
    cases downward <;> rfl
  have bounded : digitsValue 0 (ascii (Nat.toDigits 10 size)) ≤ exponentLimit := by
    rwa [digitsValue_toDigits]
  rw [text, exponentPart_append (digits_ascii isDigit_of_mem_digits)
    (by simp [ascii, Nat.toDigits_ne_nil]) (stops_of_ends ends) bounded, digitsValue_toDigits]

theorem number_exponent {front : List Char} (digits : ∀ c ∈ front, c.isDigit = true)
    (whole : Whole (ascii front)) {size : Nat} (small : size ≤ exponentLimit) (ends : Ends rest)
    (negative downward : Bool) :
    number negative (ascii (front ++ exponentText downward size) ++ rest) =
      floating negative ⟨Nat.ofDigitChars 10 front 0, signedExponent downward size⟩ rest := by
  have text : ascii (front ++ exponentText downward size) ++ rest =
      ascii front ++ 101 :: (ascii (exponentText downward size).tail ++ rest) := by
    simp [ascii, exponentText]
  rw [text, number_of_whole whole (by simp [Stops, isDigit]), numberTail_exponent,
    exponentPart_text small ends, digitsValue_ascii digits]
  simp

theorem number_point_exponent {front places : List Char}
    (digits : ∀ c ∈ front ++ places, c.isDigit = true) (whole : Whole (ascii front))
    (some : places ≠ []) {size : Nat} (small : size ≤ exponentLimit) (ends : Ends rest)
    (negative downward : Bool) :
    number negative (ascii (front ++ '.' :: places ++ exponentText downward size) ++ rest) =
      floating negative ⟨Nat.ofDigitChars 10 (front ++ places) 0,
        signedExponent downward size - places.length⟩ rest := by
  obtain ⟨inFront, inPlaces⟩ := List.forall_mem_append.mp digits
  have text : ascii (front ++ '.' :: places ++ exponentText downward size) ++ rest =
      ascii front ++ 46 :: (ascii places ++ 101 ::
        (ascii (exponentText downward size).tail ++ rest)) := by
    simp [ascii, exponentText]
  rw [text, number_of_whole whole (by simp [Stops, isDigit]),
    numberTail_point_exponent (digits_ascii inPlaces) (by simpa [ascii] using some),
    exponentPart_text small ends, digitsValue_ascii inFront, digitsValue_ascii inPlaces,
    ← Nat.ofDigitChars_append, ascii, List.length_map]

variable {d : Decimal}

/-- A whole numeral is laid out with all its zeros, and one decimal place. -/
theorem number_positional_whole (some : d.coefficient ≠ 0) (whole : 0 ≤ d.exponent)
    (ends : Ends rest) (negative : Bool) :
    number negative (ascii (d.positional ".0") ++ rest) =
      floating negative ⟨d.coefficient * 10 ^ (d.exponent.toNat + 1), -1⟩ rest := by
  obtain ⟨c, more, digits, nonzero⟩ := toDigits_eq_cons some
  have filled : d.digits ++ List.replicate d.exponent.toNat '0' ++ ['0'] =
      d.digits ++ List.replicate (d.exponent.toNat + 1) '0' := by
    rw [List.append_assoc, ← List.replicate_succ']
  have all : ∀ x ∈ (d.digits ++ List.replicate d.exponent.toNat '0') ++ ['0'],
      x.isDigit = true := by
    rw [filled]
    exact isDigit_of_mem_filled d _
  have front : Whole (ascii (d.digits ++ List.replicate d.exponent.toNat '0')) := by
    have inFront := isDigit_of_mem_filled d d.exponent.toNat
    rw [Decimal.digits, digits] at inFront ⊢
    exact whole_of_cons inFront nonzero
  have text : d.positional ".0" =
      (d.digits ++ List.replicate d.exponent.toNat '0') ++ '.' :: ['0'] :=
    positional_of_whole whole ".0"
  rw [text, number_point all front (by simp) ends, filled, ofDigitChars_filled]
  rfl

/-- A numeral with decimal places is laid out with a point among its digits. -/
theorem number_positional_fraction (some : d.coefficient ≠ 0) (fraction : d.exponent < 0)
    (ends : Ends rest) (negative : Bool) :
    number negative (ascii (d.positional ".0") ++ rest) = floating negative d rest := by
  obtain ⟨front, places, text, pointed⟩ := exists_pointed some fraction ".0"
  have whole : Whole (ascii front) := by
    rcases pointed.begins with rfl | ⟨c, more, rfl, nonzero⟩
    · exact .inl rfl
    · exact whole_of_cons (List.forall_mem_append.mp pointed.digits).1 nonzero
  have behind : places ≠ [] := by
    rintro rfl
    have none := pointed.exponent
    rw [List.length_nil] at none
    omega
  rw [text, number_point pointed.digits whole behind ends, pointed.coefficient, pointed.exponent]

/-- A numeral with an exponent has its first digit before the point. -/
theorem number_scientific (some : d.coefficient ≠ 0) (bounded : d.leading.natAbs ≤ exponentLimit)
    (ends : Ends rest) (negative : Bool) :
    number negative (ascii (d.scientific 1) ++ rest) = floating negative d rest := by
  obtain ⟨c, more, digits, nonzero⟩ := toDigits_eq_cons some
  have sign : signedExponent (d.leading < 0) d.leading.natAbs = d.leading := by
    by_cases downward : d.leading < 0
    · simp only [signedExponent, downward, decide_true, if_true]
      omega
    · simp only [signedExponent, downward, decide_false, Bool.false_eq_true, if_false]
      omega
  have exponent : 'e' :: (if d.leading < 0 then '-' else '+') ::
      Decimal.padLeft 1 (Nat.toDigits 10 d.leading.natAbs) =
        exponentText (d.leading < 0) d.leading.natAbs := by
    rw [padLeft_of_le Nat.length_toDigits_pos]
    by_cases downward : d.leading < 0 <;> simp [exponentText, downward]
  have all : ∀ x ∈ c :: more, x.isDigit = true := by
    rw [← digits]
    exact isDigit_of_mem_digits
  have value : Nat.ofDigitChars 10 (c :: more) 0 = d.coefficient := by
    rw [← digits]
    exact Nat.ofDigitChars_toDigits (by decide) (by decide)
  have length : d.leading = more.length + d.exponent := by
    rw [Decimal.leading, Decimal.digits, digits, List.length_cons]
    omega
  cases more with
  | nil =>
      have text : d.scientific 1 = [c] ++ exponentText (d.leading < 0) d.leading.natAbs := by
        rw [← exponent, Decimal.scientific, Decimal.digits, digits]
      have power : d.leading = d.exponent := by simpa using length
      rw [text, number_exponent all (whole_of_cons all nonzero) bounded ends, value, sign, power]
  | cons second more =>
      have text : d.scientific 1 = [c] ++ '.' :: (second :: more) ++
          exponentText (d.leading < 0) d.leading.natAbs := by
        rw [← exponent, Decimal.scientific, Decimal.digits, digits]
        rfl
      have power : d.leading - ((second :: more).length : Nat) = d.exponent := by omega
      have first : Whole (ascii [c]) := whole_of_cons (fun x member => all x (by simp_all)) nonzero
      rw [text, number_point_exponent all first (by simp) bounded ends, sign, power]
      exact congrArg (floating negative ⟨·, d.exponent⟩ rest) value

/-- A laid out numeral is read as one of the same value. -/
theorem number_text (some : d.coefficient ≠ 0) (bounded : d.leading.natAbs ≤ exponentLimit)
    (ends : Ends rest) (negative : Bool) :
    ∃ other, FloatFormat.double.ofDecimal other = FloatFormat.double.ofDecimal d ∧
      number negative (ascii (d.text .json) ++ rest) = floating negative other rest := by
  rw [Decimal.text]
  split
  · by_cases whole : 0 ≤ d.exponent
    · refine ⟨_, ?_, number_positional_whole some whole ends negative⟩
      have shift := FloatFormat.ofDecimal_shift d.coefficient d.exponent (d.exponent.toNat + 1)
      have power : d.exponent - ((d.exponent.toNat + 1 : Nat) : Int) = -1 := by omega
      rwa [power] at shift
    · exact ⟨d, rfl, number_positional_fraction some (by omega) ends negative⟩
  · exact ⟨d, rfl, number_scientific some bounded ends negative⟩

end Numeral

/-- A digit is none of the bytes that begin another document. -/
theorem ne_of_isDigit {byte : UInt8} (digit : isDigit byte = true) :
    isBlank byte = false ∧ byte ≠ 34 ∧ byte ≠ 91 ∧ byte ≠ 123 ∧ byte ≠ 45 := by
  refine ⟨?_, ?_, ?_, ?_, ?_⟩
  · by_contra blank
    simp only [isBlank, Bool.or_eq_true, beq_iff_eq, Bool.not_eq_false] at blank
    rcases blank with ((rfl | rfl) | rfl) | rfl <;> exact absurd digit (by decide)
  all_goals
    rintro rfl
    exact absurd digit (by decide)

/-- A number behind its sign is a document. -/
theorem value_of_number {negative : Bool} {s : List UInt8} {result : Json × List UInt8}
    (read : number negative s = .ok result) (levels : Nat) :
    value levels ((if negative then [45] else []) ++ s) = .ok result := by
  cases negative with
  | true =>
      have minus : skipBlanks (45 :: s) = 45 :: s := skipBlanks_cons s rfl
      show value levels (45 :: s) = .ok result
      cases levels <;> rw [value, valueWith, minus] <;> exact read
  | false =>
      cases s with
      | nil => simp [number, fail] at read
      | cons byte s =>
          have digit : isDigit byte = true := by
            by_contra other
            by_cases zero : byte = 48
            · rw [zero] at other
              exact other rfl
            · simp [number, fail, zero, other] at read
          obtain ⟨solid, notQuote, notBracket, notBrace, notMinus⟩ := ne_of_isDigit digit
          have begins : skipBlanks (byte :: s) = byte :: s := skipBlanks_cons s solid
          show value levels (byte :: s) = .ok result
          cases levels <;> rw [value, valueWith, begins] <;>
            simp only [if_neg notQuote, if_neg notBracket, if_neg notBrace, if_neg notMinus,
              if_pos digit, read]

theorem reads_of_number {document : Json} {negative : Bool} {text : List UInt8}
    (scalar : document.depth = 0)
    (written : document.render = (if negative then [45] else []) ++ text)
    (read : ∀ rest, Ends rest → number negative (text ++ rest) = .ok (document, rest)) :
    Reads document := by
  intro levels rest ends
  rw [written, List.append_assoc]
  exact ⟨fun _ => value_of_number (read rest ends) levels, fun deep => absurd scalar (by omega)⟩

theorem numberTail_of_ends {rest : List UInt8} (ends : Ends rest) (negative : Bool) (n : Nat) :
    numberTail negative n rest = numberTail.floatOrWhole negative n rest := by
  cases rest with
  | nil => rfl
  | cons byte rest => rcases ends byte rfl with rfl | rfl | rfl <;> rfl

/-- An integer is read back if it is a word, with a sign or without one. -/
theorem reads_integer {n : Int} (least : -0x8000000000000000 ≤ n)
    (greatest : n < 0x10000000000000000) : Reads (integer n) := by
  have text : (integer n).render =
      (if decide (n < 0) then [45] else []) ++ ascii (Nat.toDigits 10 n.natAbs) := by
    rw [render, scalarText, integerText, decimalText, ascii_append]
    · by_cases negative : n < 0 <;> simp [negative, ascii]
    all_goals simp
  refine reads_of_number rfl text fun rest ends => ?_
  rw [number_of_whole (whole_toDigits _) (stops_of_ends ends), digitsValue_toDigits,
    numberTail_of_ends ends, numberTail.floatOrWhole, whole]
  by_cases negative : n < 0
  · have size : 0 < n.natAbs ∧ n.natAbs ≤ 0x8000000000000000 := by omega
    have same : -(n.natAbs : Int) = n := by omega
    simp only [negative, decide_true, if_true, if_pos size, same]
  · have size : n.natAbs < 0x10000000000000000 := by omega
    have same : (n.natAbs : Int) = n := by omega
    simp only [negative, decide_false, Bool.false_eq_true, if_false, if_pos size, same]

/-- The text of a finite number without its sign is read as that number. -/
theorem number_shortestText {pattern : Nat} (finite : pattern < FloatFormat.double.infinity)
    (negative : Bool) {rest : List UInt8} (ends : Ends rest) :
    number negative (ascii (FloatFormat.double.shortestText .json pattern) ++ rest) =
      .ok (.float (.ofUnsigned negative pattern), rest) := by
  obtain ⟨numeral, value, read⟩ : ∃ numeral, FloatFormat.double.ofDecimal numeral = pattern ∧
      number negative (ascii (FloatFormat.double.shortestText .json pattern) ++ rest) =
        floating negative numeral rest := by
    rw [FloatFormat.shortestText]
    by_cases zero : pattern = 0
    · rw [if_pos zero, zero]
      have text : (⟨0, 0⟩ : Decimal).text .json = ['0'] ++ '.' :: ['0'] := by decide
      have digits : ∀ c ∈ ['0'] ++ ['0'], c.isDigit = true := by simp
      rw [text, number_point digits (.inl rfl) (by simp) ends]
      exact ⟨_, rfl, rfl⟩
    · rw [if_neg zero]
      have value := FloatFormat.ofDecimal_shortest finite
      have some := FloatFormat.coefficient_ne_zero (value.symm ▸ zero)
      have bounded := FloatFormat.leading_of_ofDecimal value zero finite
      obtain ⟨numeral, same, read⟩ := number_text some
        (show _ ≤ exponentLimit by unfold exponentLimit; omega) ends negative
      exact ⟨numeral, same.trans value, read⟩
  rw [read, floating, Binary64.ofDecimal, value]
  simp [Binary64.isInfinite, Binary64.unsigned_ofUnsigned negative
    (finite.trans FloatFormat.infinity_lt_signBit), finite.ne]

/-- A finite number is read back. -/
theorem reads_float {x : Binary64} (finite : x.isFinite = true) : Reads (float x) := by
  have text : (float x).render = (if x.isNegative then [45] else []) ++
      ascii (FloatFormat.double.shortestText .json x.unsigned) := by
    rw [render, scalarText, if_pos finite, numeral, Binary64.shortestText, ascii_append]
    · by_cases negative : x.isNegative = true <;> simp [Binary64.signText, negative, ascii]
    all_goals simp
  refine reads_of_number rfl text fun rest ends => ?_
  have below : x.unsigned < FloatFormat.double.infinity := by simpa [Binary64.isFinite] using finite
  rw [number_shortestText below _ ends, Binary64.ofUnsigned_unsigned]

end ScriptHost.Json
