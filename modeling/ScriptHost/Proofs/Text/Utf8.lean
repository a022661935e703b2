import ScriptHost.Text.Digit
import ScriptHost.Text.Utf8

set_option autoImplicit false

namespace ScriptHost

theorem utf8_eq (text : String) : utf8 text = text.toByteArray.data.toList := rfl

theorem ofUtf8?_utf8 (text : String) : ofUtf8? (utf8 text) = some text := by
  have bytes : (⟨(utf8 text).toArray⟩ : ByteArray) = text.toByteArray := by
    simp [utf8_eq]
  rw [ofUtf8?, bytes, String.fromUTF8?, dif_pos text.isValidUTF8]
  rfl

theorem utf8_of_ofUtf8? {bytes : List UInt8} {text : String} (valid : ofUtf8? bytes = some text) :
    utf8 text = bytes := by
  rw [ofUtf8?, String.fromUTF8?] at valid
  split at valid
  · cases valid
    simp [utf8_eq, String.fromUTF8]
  · cases valid

theorem utf8_ofList (characters : List Char) :
    utf8 (String.ofList characters) = characters.flatMap String.utf8EncodeChar := by
  rw [utf8_eq, String.toByteArray_ofList, List.utf8Encode, List.data_toByteArray,
    List.toList_toArray]

theorem utf8_append (first second : String) :
    utf8 (first ++ second) = utf8 first ++ utf8 second := by
  simp [utf8_eq, String.toByteArray_append]

theorem utf8_injective : Function.Injective utf8 := by
  intro first second same
  have text := ofUtf8?_utf8 first
  rw [same, ofUtf8?_utf8] at text
  exact (Option.some.inj text).symm

theorem utf8EncodeChar_ascii {byte : UInt8} (ascii : byte < 128) :
    String.utf8EncodeChar (Char.ofNat byte.toNat) = [byte] := by
  have small : byte.toNat < 128 := UInt8.lt_iff_toNat_lt.mp ascii
  have code : (Char.ofNat byte.toNat).val.toNat = byte.toNat := by
    rw [Char.ofNat, dif_pos (by left; omega)]
    rfl
  have one : (Char.ofNat byte.toNat).utf8Size = 1 := by
    rw [Char.utf8Size_eq_one_iff, UInt32.le_iff_toNat_le, code]
    exact Nat.le_of_lt_succ small
  have same : (Char.ofNat byte.toNat).val.toUInt8 = byte := by
    rw [← UInt8.toNat_inj, UInt32.toNat_toUInt8, code, Nat.mod_eq_of_lt byte.toNat_lt]
  rw [String.utf8EncodeChar_eq_singleton one, same]

/-- A text of ASCII characters has one byte for each of them. -/
theorem utf8_of_ascii {text : String} (small : ∀ c ∈ text.toList, c.toNat < 128) :
    utf8 text = ascii text.toList := by
  have each : ∀ c ∈ text.toList, String.utf8EncodeChar c = [UInt8.ofNat c.toNat] := by
    intro c member
    have below := small c member
    have code : (UInt8.ofNat c.toNat).toNat = c.toNat := by
      rw [UInt8.toNat_ofNat', Nat.mod_eq_of_lt (by omega)]
    have byte : UInt8.ofNat c.toNat < 128 := by
      rw [UInt8.lt_iff_toNat_lt, code]
      exact below
    have encoded := utf8EncodeChar_ascii byte
    rwa [code, Char.ofNat_toNat] at encoded
  obtain ⟨characters, rfl⟩ : ∃ characters, text = String.ofList characters :=
    ⟨text.toList, String.ofList_toList.symm⟩
  rw [String.toList_ofList] at each ⊢
  rw [utf8_ofList, ascii]
  clear small
  induction characters with
  | nil => rfl
  | cons c rest ih =>
      obtain ⟨first, others⟩ := List.forall_mem_cons.mp each
      rw [List.flatMap_cons, first, ih others, List.map_cons, List.singleton_append]

theorem exists_ofUtf8?_of_ascii {bytes : List UInt8} (ascii : ∀ byte ∈ bytes, byte < 128) :
    ∃ text, ofUtf8? bytes = some text := by
  have same : utf8 (String.ofList (bytes.map fun byte => Char.ofNat byte.toNat)) = bytes := by
    rw [utf8_ofList, List.flatMap_map]
    induction bytes with
    | nil => rfl
    | cons byte bytes ih =>
        obtain ⟨first, rest⟩ := List.forall_mem_cons.mp ascii
        rw [List.flatMap_cons, utf8EncodeChar_ascii first, List.singleton_append, ih rest]
  exact ⟨_, same ▸ ofUtf8?_utf8 _⟩

/-- A text of as many letters as one likes. -/
def letters (count : Nat) : String := String.ofList (List.replicate count 'a')

theorem utf8_letters (count : Nat) : utf8 (letters count) = List.replicate count 0x61 := by
  rw [letters, utf8_ofList]
  induction count with
  | zero => rfl
  | succ count ih =>
      rw [List.replicate_succ, List.flatMap_cons, ih]
      rfl

theorem length_utf8_letters (count : Nat) : (utf8 (letters count)).length = count := by
  rw [utf8_letters, List.length_replicate]

/-- There are texts of every length. -/
theorem exists_text_of_length (count : Nat) : ∃ text, (utf8 text).length = count :=
  ⟨letters count, length_utf8_letters count⟩

end ScriptHost
