import Mathlib.Tactic.Positivity
import Mathlib.Tactic.Ring
import ScriptHost.MsgPack.Reader
import ScriptHost.MsgPack.Writer

set_option autoImplicit false

namespace ScriptHost.MsgPack

@[simp] theorem length_bigEndian (width n : Nat) : (bigEndian width n).length = width := by
  induction width with
  | zero => rfl
  | succ width ih => rw [bigEndian, List.length_cons, ih]

/-- The digits that were read before stand above those that are read next. -/
theorem foldl_bigEndian (width n above : Nat) :
    (bigEndian width n).foldl (fun m byte => 256 * m + byte.toNat) above =
      above * 256 ^ width + n % 256 ^ width := by
  induction width generalizing above with
  | zero => simp [bigEndian, Nat.mod_one]
  | succ width ih =>
      have digit : (UInt8.ofNat (n / Nat.pow 256 width)).toNat = n / 256 ^ width % 256 :=
        UInt8.toNat_ofNat'
      rw [bigEndian, List.foldl_cons, ih, digit, Nat.mod_pow_succ, pow_succ]
      ring

theorem ofBigEndian_bigEndian (width n : Nat) :
    ofBigEndian (bigEndian width n) = n % 256 ^ width := by
  rw [ofBigEndian, foldl_bigEndian, Nat.zero_mul, Nat.zero_add]

/-- The low bytes of a written number are read, and the reading goes on behind them. -/
theorem unsigned_bigEndian_mod {α : Type} (width n : Nat) (s : List UInt8)
    (next : Nat → List UInt8 → Read α) :
    unsigned width (bigEndian width n ++ s) next = next (n % 256 ^ width) s := by
  have front : (bigEndian width n ++ s).take width = bigEndian width n := by
    rw [List.take_left' (length_bigEndian width n)]
  have back : (bigEndian width n ++ s).drop width = s := by
    rw [List.drop_left' (length_bigEndian width n)]
  simp [unsigned, front, back, ofBigEndian_bigEndian]

/-- A written number is read if it fits. -/
theorem unsigned_bigEndian {α : Type} (width n : Nat) (fits : n < 256 ^ width) (s : List UInt8)
    (next : Nat → List UInt8 → Read α) :
    unsigned width (bigEndian width n ++ s) next = next n s := by
  rw [unsigned_bigEndian_mod, Nat.mod_eq_of_lt fits]

/-- The lengths that the length fields of the format can hold. -/
def lengthLimit : Nat := 2 ^ 32

theorem lengthField_of_lt {length : Nat} (fits : length < lengthLimit) :
    lengthField length = length := Nat.mod_eq_of_lt fits

/-- Lengths that differ by the limit are carried alike. -/
theorem lengthField_add_limit (length : Nat) :
    lengthField (length + lengthLimit) = lengthField length := Nat.add_mod_right _ _

namespace Level

variable (level : Level) (s : List UInt8)

theorem read_marker {marker : Nat} (small : marker < 256) :
    level.read (UInt8.ofNat marker :: s) = level.afterMarker marker s := by
  rw [Level.read, UInt8.toNat_ofNat_of_lt' small]

/-- A marker that announces a number of some bytes, and that number behind it. -/
theorem read_field {marker : UInt8} (width n : Nat) (fits : n < 256 ^ width)
    (next : Nat → List UInt8 → Read MsgPack)
    (meaning : ∀ s, level.afterMarker marker.toNat s = unsigned width s next) :
    level.read (marker :: bigEndian width n ++ s) = next n s := by
  rw [List.cons_append, Level.read, meaning, unsigned_bigEndian width n fits]

theorem read_stringHead {length : Nat} (fits : length < lengthLimit) :
    level.read (stringHead length ++ s) = level.stringBody length s := by
  unfold stringHead
  unfold lengthLimit at fits
  split
  · rw [List.singleton_append, read_marker _ _ (by omega)]
    unfold afterMarker
    rw [if_neg (by omega), if_neg (by omega), if_neg (by omega), if_pos (by omega),
      Nat.add_sub_cancel_left]
  split
  · exact read_field level s 1 length (by omega) level.stringBody fun _ => rfl
  split
  · exact read_field level s 2 length (by omega) level.stringBody fun _ => rfl
  · exact read_field level s 4 length (by omega) level.stringBody fun _ => rfl

theorem read_binaryHead {length : Nat} (fits : length < lengthLimit) :
    level.read (binaryHead length ++ s) = level.binaryBody length s := by
  unfold binaryHead
  unfold lengthLimit at fits
  split
  · exact read_field level s 1 length (by omega) level.binaryBody fun _ => rfl
  split
  · exact read_field level s 2 length (by omega) level.binaryBody fun _ => rfl
  · exact read_field level s 4 length (by omega) level.binaryBody fun _ => rfl

theorem read_arrayHead {length : Nat} (fits : length < lengthLimit) :
    level.read (arrayHead length ++ s) = level.arrayBody length s := by
  unfold arrayHead
  unfold lengthLimit at fits
  split
  · rw [List.singleton_append, read_marker _ _ (by omega)]
    unfold afterMarker
    rw [if_neg (by omega), if_neg (by omega), if_pos (by omega), Nat.add_sub_cancel_left]
  split
  · exact read_field level s 2 length (by omega) level.arrayBody fun _ => rfl
  · exact read_field level s 4 length (by omega) level.arrayBody fun _ => rfl

theorem read_mapHead {length : Nat} (fits : length < lengthLimit) :
    level.read (mapHead length ++ s) = level.mapBody length s := by
  unfold mapHead
  unfold lengthLimit at fits
  split
  · rw [List.singleton_append, read_marker _ _ (by omega)]
    unfold afterMarker
    rw [if_neg (by omega), if_pos (by omega), Nat.add_sub_cancel_left]
  split
  · exact read_field level s 2 length (by omega) level.mapBody fun _ => rfl
  · exact read_field level s 4 length (by omega) level.mapBody fun _ => rfl

theorem read_extensionHead {length : Nat} (fits : length < lengthLimit) :
    level.read (extensionHead length ++ s) = level.extensionBody length s := by
  unfold extensionHead
  unfold lengthLimit at fits
  split
  · simp_all [Level.read, afterMarker]
  split
  · simp_all [Level.read, afterMarker]
  split
  · simp_all [Level.read, afterMarker]
  split
  · simp_all [Level.read, afterMarker]
  split
  · simp_all [Level.read, afterMarker]
  split
  · exact read_field level s 1 length (by omega) level.extensionBody fun _ => rfl
  split
  · exact read_field level s 2 length (by omega) level.extensionBody fun _ => rfl
  · exact read_field level s 4 length (by omega) level.extensionBody fun _ => rfl

theorem toSigned_toNat (width : Nat) {n : Int} (positive : 0 < width)
    (least : -2 ^ (8 * width - 1) ≤ n) : toSigned width (n + 2 ^ (8 * width)).toNat = n := by
  have half : (2 : Int) ^ (8 * width) = 2 * 2 ^ (8 * width - 1) := by
    rw [← pow_succ', Nat.sub_add_cancel (by omega)]
  have unit : (0 : Int) < 2 ^ (8 * width - 1) := by positivity
  have large : ¬ (n + 2 ^ (8 * width)).toNat < 2 ^ (8 * width - 1) := by
    rw [not_lt, Int.le_toNat (by omega)]
    push_cast
    omega
  rw [toSigned, Nat.pow_eq, Nat.pow_eq, if_neg large, Int.toNat_of_nonneg (by omega)]
  push_cast
  omega

/-- A marker that announces a signed number of some bytes, and a negative number behind it. -/
theorem read_signedField {marker : UInt8} (width : Nat) {n : Int} (positive : 0 < width)
    (least : -2 ^ (8 * width - 1) ≤ n) (fits : (n + 2 ^ (8 * width)).toNat < 256 ^ width)
    (meaning : ∀ s, level.afterMarker marker.toNat s =
      unsigned width s fun m s => .ok (.integer (toSigned width m), s)) :
    level.read (marker :: bigEndian width (n + 2 ^ (8 * width)).toNat ++ s) =
      .ok (.integer n, s) := by
  rw [read_field level s width _ fits _ meaning, toSigned_toNat width positive least]

/-- Signed and unsigned words of sixty-four bits are read back. -/
theorem read_writeInteger {n : Int} (least : -0x8000000000000000 ≤ n)
    (greatest : n < 0x10000000000000000) :
    level.read (writeInteger n ++ s) = .ok (.integer n, s) := by
  unfold writeInteger
  split
  · rename_i natural
    obtain ⟨m, rfl⟩ := Int.eq_ofNat_of_zero_le natural
    let natural (m : Nat) (s : List UInt8) : Read MsgPack := .ok (.integer m, s)
    simp only [Int.toNat_natCast]
    split
    · rw [List.singleton_append, read_marker _ _ (by omega)]
      unfold afterMarker
      rw [if_pos (by omega)]
    split
    · exact read_field level s 1 m (by omega) natural fun _ => rfl
    split
    · exact read_field level s 2 m (by omega) natural fun _ => rfl
    split
    · exact read_field level s 4 m (by omega) natural fun _ => rfl
    · exact read_field level s 8 m (by omega) natural fun _ => rfl
  split
  · have marker : bigEndian 1 (n + 0x100).toNat = [UInt8.ofNat (n + 0x100).toNat] := by
      simp [bigEndian]
    rw [marker, List.singleton_append, read_marker _ _ (by omega)]
    unfold afterMarker
    rw [if_neg (by omega), if_neg (by omega), if_neg (by omega), if_neg (by omega),
      if_pos (by omega)]
    congr 3
    omega
  split
  · exact read_signedField level s 1 (by omega) (by omega) (by omega) fun _ => rfl
  split
  · exact read_signedField level s 2 (by omega) (by omega) (by omega) fun _ => rfl
  split
  · exact read_signedField level s 4 (by omega) (by omega) (by omega) fun _ => rfl
  · exact read_signedField level s 8 (by omega) (by omega) (by omega) fun _ => rfl

end Level

end ScriptHost.MsgPack
