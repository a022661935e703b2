import Mathlib.Algebra.Ring.Nat
import ScriptHost.Number.Text

set_option autoImplicit false

namespace ScriptHost.Decimal

theorem isDigit_of_mem_digits {n : Nat} : ∀ c ∈ Nat.toDigits 10 n, c.isDigit = true :=
  fun _ member => Nat.isDigit_of_mem_toDigits (by decide) (by decide) member

/-- A positive number does not begin with a zero. -/
theorem toDigits_eq_cons {n : Nat} (some : n ≠ 0) :
    ∃ c rest, Nat.toDigits 10 n = c :: rest ∧ c ≠ '0' := by
  induction n using Nat.strongRecOn with
  | ind n ih =>
      by_cases single : n < 10
      · refine ⟨n.digitChar, [], Nat.toDigits_of_lt_base single, ?_⟩
        have digit : ∀ n < 10, n ≠ 0 → n.digitChar ≠ '0' := by decide
        exact digit n single some
      · obtain ⟨c, rest, digits, nonzero⟩ := ih (n / 10) (by omega) (by omega)
        have joined := Nat.toDigits_append_toDigits (b := 10) (n := n / 10) (d := n % 10)
          (by decide) (by omega) (by omega)
        rw [Nat.div_add_mod, digits] at joined
        exact ⟨c, rest ++ Nat.toDigits 10 (n % 10), joined.symm, nonzero⟩

theorem isDigit_of_mem_padLeft {width : Nat} {text : List Char}
    (digits : ∀ c ∈ text, c.isDigit = true) : ∀ c ∈ padLeft width text, c.isDigit = true := by
  intro c member
  rcases List.mem_append.mp member with zero | inside
  · rw [List.eq_of_mem_replicate zero]
    rfl
  · exact digits c inside

theorem length_padLeft (width : Nat) (text : List Char) :
    (padLeft width text).length = max width text.length := by
  rw [padLeft, List.length_append, List.length_replicate]
  omega

theorem ofDigitChars_padLeft (width : Nat) (text : List Char) :
    Nat.ofDigitChars 10 (padLeft width text) 0 = Nat.ofDigitChars 10 text 0 := by
  rw [padLeft, Nat.ofDigitChars_append, Nat.ofDigitChars_replicate_zero, Nat.mul_zero]

theorem padLeft_of_le {width : Nat} {text : List Char} (wide : width ≤ text.length) :
    padLeft width text = text := by
  rw [padLeft, Nat.sub_eq_zero_of_le wide]
  rfl

/-- Padded to more than its width, a number begins with a zero; else it is as it was. -/
theorem padLeft_cases (width : Nat) (text : List Char) :
    (∃ more, padLeft (width + 1) text = '0' :: more ∧ more.length = width) ∨
      padLeft (width + 1) text = text ∧ width < text.length := by
  by_cases shorter : text.length ≤ width
  · refine .inl ⟨padLeft width text, ?_, by rw [length_padLeft]; omega⟩
    have count : width + 1 - text.length = width - text.length + 1 := by omega
    rw [padLeft, padLeft, count, List.replicate_succ, List.cons_append]
  · exact .inr ⟨padLeft_of_le (by omega), by omega⟩

/-- The digits of a numeral with zeros behind them. -/
theorem isDigit_of_mem_filled (d : Decimal) (zeros : Nat) :
    ∀ c ∈ d.digits ++ List.replicate zeros '0', c.isDigit = true := by
  intro c member
  rcases List.mem_append.mp member with inside | zero
  · exact isDigit_of_mem_digits c inside
  · rw [List.eq_of_mem_replicate zero]
    rfl

theorem ofDigitChars_filled (d : Decimal) (zeros : Nat) :
    Nat.ofDigitChars 10 (d.digits ++ List.replicate zeros '0') 0 =
      d.coefficient * 10 ^ zeros := by
  rw [Nat.ofDigitChars_append, Nat.ofDigitChars_replicate_zero, digits,
    Nat.ofDigitChars_ten_toDigits, Nat.mul_comm]

theorem positional_of_whole {d : Decimal} (whole : 0 ≤ d.exponent) (suffix : String) :
    d.positional suffix =
      d.digits ++ List.replicate d.exponent.toNat '0' ++ suffix.toList := by
  rw [positional]
  simp only [if_pos whole]

/-- Digits around a point that spell a numeral: a zero alone in front of the point, or more digits
that do not begin with one. -/
structure Pointed (d : Decimal) (front places : List Char) : Prop where
  digits : ∀ c ∈ front ++ places, c.isDigit = true
  begins : front = ['0'] ∨ ∃ c more, front = c :: more ∧ c ≠ '0'
  coefficient : Nat.ofDigitChars 10 (front ++ places) 0 = d.coefficient
  exponent : -(places.length : Int) = d.exponent

theorem exists_pointed {d : Decimal} (some : d.coefficient ≠ 0) (fraction : d.exponent < 0)
    (suffix : String) :
    ∃ front places, d.positional suffix = front ++ '.' :: places ∧ Pointed d front places := by
  generalize count : (-d.exponent).toNat = places
  generalize shape : padLeft (places + 1) d.digits = padded
  have text : d.positional suffix =
      padded.take (padded.length - places) ++ '.' :: padded.drop (padded.length - places) := by
    rw [positional]
    simp only [if_neg (Int.not_le.mpr fraction), count, shape]
  have length : places < padded.length := by
    rw [← shape, length_padLeft]
    omega
  have behind : (padded.drop (padded.length - places)).length = places := by
    rw [List.length_drop]
    omega
  refine ⟨_, _, text, ?_, ?_, ?_, by rw [behind]; omega⟩
  · rw [List.take_append_drop, ← shape]
    exact isDigit_of_mem_padLeft isDigit_of_mem_digits
  -- before the point stands a single zero, or what the digits begin with
  · rcases padLeft_cases places d.digits with ⟨more, zero, least⟩ | ⟨same, -⟩
    · rw [← shape, zero, List.length_cons, least, Nat.add_sub_cancel_left]
      exact .inl rfl
    · obtain ⟨c, more, digits, nonzero⟩ := toDigits_eq_cons some
      have begins : padded = c :: more := by rw [← shape, same, Decimal.digits, digits]
      obtain ⟨taken, count⟩ : ∃ taken, padded.length - places = taken + 1 :=
        ⟨padded.length - places - 1, by omega⟩
      rw [count, begins, List.take_succ_cons]
      exact .inr ⟨c, _, rfl, nonzero⟩
  · rw [List.take_append_drop, ← shape, ofDigitChars_padLeft]
    exact Nat.ofDigitChars_ten_toDigits

end ScriptHost.Decimal
