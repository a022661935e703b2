import ScriptHost.Json.Parser
import ScriptHost.Json.Printer
import ScriptHost.Proofs.Text.Utf8

set_option autoImplicit false

namespace ScriptHost.Json

theorem hexValue?_hexDigit {n : Nat} (digit : n < 16) : hexValue? (hexDigit n) = some n := by
  revert n
  decide

/-- A control byte is a character of its own. -/
theorem utf8OfCode_of_lt {code : Nat} (control : code < 32) :
    utf8OfCode code = [UInt8.ofNat code] := by
  revert code
  decide

/-- Control bytes are written as four hexadecimal digits. -/
theorem escaped_hexDigits {byte : UInt8} (control : byte < 32) (s : List UInt8) :
    escaped (117 :: 48 :: 48 :: hexDigit (byte.toNat / 16) :: hexDigit (byte.toNat % 16) :: s) =
      .ok ([byte], s) := by
  have small : byte.toNat < 32 := UInt8.lt_iff_toNat_lt.mp control
  have zero : hexValue? 48 = some 0 := rfl
  have high := hexValue?_hexDigit (show byte.toNat / 16 < 16 by omega)
  have low := hexValue?_hexDigit (show byte.toNat % 16 < 16 by omega)
  have code : ((0 * 16 + 0) * 16 + byte.toNat / 16) * 16 + byte.toNat % 16 = byte.toNat := by omega
  have quad : hexQuad (48 :: 48 :: hexDigit (byte.toNat / 16) :: hexDigit (byte.toNat % 16) :: s) =
      .ok (byte.toNat, s) := by
    simp only [hexQuad, zero, high, low, code]
  rw [escaped]
  simp only [quad, show ¬ (0xDC00 ≤ byte.toNat ∧ byte.toNat ≤ 0xDFFF) by omega,
    show ¬ (0xD800 ≤ byte.toNat ∧ byte.toNat ≤ 0xDBFF) by omega, utf8OfCode_of_lt small,
    UInt8.ofNat_toNat, if_false]
  rfl

/-- A byte is written as it is, or as an escape that stands for it. -/
theorem escape_cases (byte : UInt8) :
    (escape byte = [byte] ∧ byte ≠ 34 ∧ byte ≠ 92 ∧ ¬ byte < 32) ∨
      ∃ code, escape byte = 92 :: code ∧ ∀ s, escaped (code ++ s) = .ok ([byte], s) := by
  unfold escape
  split
  · rename_i same
    exact .inr ⟨[34], rfl, fun s => by rw [same]; rfl⟩
  split
  · rename_i same
    exact .inr ⟨[92], rfl, fun s => by rw [same]; rfl⟩
  split
  · rename_i same
    exact .inr ⟨[98], rfl, fun s => by rw [same]; rfl⟩
  split
  · rename_i same
    exact .inr ⟨[116], rfl, fun s => by rw [same]; rfl⟩
  split
  · rename_i same
    exact .inr ⟨[110], rfl, fun s => by rw [same]; rfl⟩
  split
  · rename_i same
    exact .inr ⟨[102], rfl, fun s => by rw [same]; rfl⟩
  split
  · rename_i same
    exact .inr ⟨[114], rfl, fun s => by rw [same]; rfl⟩
  split
  · rename_i control
    exact .inr ⟨_, rfl, escaped_hexDigits control⟩
  · rename_i notQuote notBackslash _ _ _ _ _ notControl
    exact .inl ⟨rfl, notQuote, notBackslash, notControl⟩

/-- Written bytes are read up to the closing quote. -/
theorem stringBytes_escape (bytes : List UInt8) (fuel : Nat) (read rest : List UInt8)
    (enough : bytes.length < fuel) :
    stringBytes fuel read (bytes.flatMap escape ++ 34 :: rest) =
      .ok (read.reverse ++ bytes, rest) := by
  induction bytes generalizing fuel read with
  | nil =>
      obtain ⟨fuel, rfl⟩ : ∃ n, fuel = n + 1 := ⟨fuel - 1, by simp at enough; omega⟩
      simp [stringBytes]
  | cons byte more ih =>
      rw [List.length_cons] at enough
      obtain ⟨fuel, rfl⟩ : ∃ n, fuel = n + 1 := ⟨fuel - 1, by omega⟩
      have next := ih fuel (byte :: read) (by omega)
      rw [List.reverse_cons, List.append_assoc, List.singleton_append] at next
      rw [List.flatMap_cons, List.append_assoc]
      rcases escape_cases byte with ⟨plain, notQuote, notBackslash, notControl⟩ |
        ⟨code, written, meaning⟩
      · rw [plain, List.singleton_append, stringBytes, if_neg notQuote, if_neg notBackslash,
          if_neg notControl, next]
      · rw [written, List.cons_append, stringBytes, if_neg (by decide), if_pos rfl, meaning]
        exact next

theorem length_le_flatMap_escape (bytes : List UInt8) :
    bytes.length ≤ (bytes.flatMap escape).length := by
  induction bytes with
  | nil => simp
  | cons byte more ih =>
      have some : 0 < (escape byte).length := by
        rcases escape_cases byte with ⟨plain, -⟩ | ⟨code, written, -⟩
        · simp [plain]
        · simp [written]
      rw [List.flatMap_cons, List.length_append, List.length_cons]
      omega

/-- A string is read behind its opening quote, and nothing of what follows it. -/
theorem stringBody_quoted (text : String) (rest : List UInt8) :
    stringBody ((utf8 text).flatMap escape ++ 34 :: rest) = .ok (text, rest) := by
  have shorter := length_le_flatMap_escape (utf8 text)
  have enough : (utf8 text).length < ((utf8 text).flatMap escape ++ 34 :: rest).length := by
    rw [List.length_append, List.length_cons]
    omega
  have bytes := stringBytes_escape (utf8 text) _ [] rest enough
  simp only [stringBody, bytes, List.reverse_nil, List.nil_append, ofUtf8?_utf8]

theorem quoted_append (text : String) (rest : List UInt8) :
    quoted text ++ rest = 34 :: ((utf8 text).flatMap escape ++ 34 :: rest) := by
  simp [quoted]

end ScriptHost.Json
