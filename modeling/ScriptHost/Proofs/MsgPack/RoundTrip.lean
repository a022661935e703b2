import ScriptHost.Proofs.MsgPack.Word
import ScriptHost.Proofs.Parts

set_option autoImplicit false

/- Documents read back as they were written. A document whose numbers and lengths the format can
hold is read whole, with all that follows left over, exactly when the budget admits its nesting;
with less, reading fails for the depth and for nothing else. -/
namespace ScriptHost.MsgPack

/-- How long the body of a document is, or how many items or pairs it has. -/
def size : MsgPack → Nat
  | string bytes | binary bytes | extension _ bytes => bytes.length
  | array items => items.length
  | map pairs => pairs.length
  | _ => 0

/-- Numbers are words, and the type of an extension is a byte. -/
def InRange : MsgPack → Prop
  | integer n => -0x8000000000000000 ≤ n ∧ n < 0x10000000000000000
  | extension type _ => -0x80 ≤ type ∧ type < 0x80
  | _ => True

/-- Every length inside fits the length fields of the format. -/
def Sized (raw : MsgPack) : Prop := ∀ part ∈ raw.parts, part.size < lengthLimit

/-- Every number inside fits the number fields of the format. -/
def Ranged (raw : MsgPack) : Prop := ∀ part ∈ raw.parts, part.InRange

theorem sized_iff {raw : MsgPack} :
    raw.Sized ↔ raw.size < lengthLimit ∧ ∀ child ∈ raw.children, child.Sized := forall_mem_parts

theorem ranged_iff {raw : MsgPack} :
    raw.Ranged ↔ raw.InRange ∧ ∀ child ∈ raw.children, child.Ranged := forall_mem_parts

mutual

/-- The budget that reading a document takes. -/
def nesting : MsgPack → Nat
  | string _ | extension _ _ => 3
  | binary _ => 2
  | array items => 2 + nestingOfItems items
  | map pairs => 2 + nestingOfPairs pairs
  | _ => 1

def nestingOfItems : List MsgPack → Nat
  | [] => 0
  | item :: rest => max item.nesting (nestingOfItems rest)

def nestingOfPairs : List (MsgPack × MsgPack) → Nat
  | [] => 0
  | (key, value) :: rest => max (max key.nesting value.nesting) (nestingOfPairs rest)

end

theorem nesting_pos (raw : MsgPack) : 0 < raw.nesting := by
  cases raw <;> simp [nesting]

/-- The level that a value is read on, with a budget left for its body. -/
def levelOf (budget : Nat) : Level :=
  ⟨budget, match budget with
    | 0 => none
    | below + 1 => some (read below)⟩

@[simp] theorem levelOf_budget (budget : Nat) : (levelOf budget).budget = budget := rfl

theorem read_succ (budget : Nat) (s : List UInt8) :
    read (budget + 1) s = (levelOf budget).read s := by
  cases budget <;> rfl

/-- Reading with a budget hands over the rest, or fails for the depth. -/
def Reads (raw : MsgPack) (reader : Nat → List UInt8 → Read MsgPack) : Prop :=
  ∀ budget rest, reader budget (raw.write ++ rest) =
    if raw.nesting ≤ budget then .ok (raw, rest) else .error .depth

/-- It is enough to read on every level. -/
theorem reads_of_levels {raw : MsgPack} (levels : ∀ budget rest,
    (levelOf budget).read (raw.write ++ rest) =
      if raw.nesting ≤ budget + 1 then .ok (raw, rest) else .error .depth) : Reads raw read := by
  intro budget rest
  cases budget with
  | zero => rw [if_neg (Nat.not_le.mpr raw.nesting_pos), read]
  | succ budget => rw [read_succ, levels]

theorem body_append {α : Type} (bytes rest : List UInt8) (make : List UInt8 → α) :
    body bytes.length (bytes ++ rest) make = .ok (make bytes, rest) := by
  simp [body]

/-- Items are read one after the other if the budget admits each of them. -/
theorem many_writeItems {items : List MsgPack} (reads : ∀ item ∈ items, Reads item read)
    (budget : Nat) (before : List MsgPack) (rest : List UInt8) :
    many (read budget) items.length before (writeItems items ++ rest) =
      if nestingOfItems items ≤ budget then .ok (before.reverse ++ items, rest)
      else .error .depth := by
  induction items generalizing before with
  | nil => simp [writeItems, many, nestingOfItems]
  | cons item more ih =>
      have first := reads item (by simp) budget (writeItems more ++ rest)
      rw [writeItems, List.append_assoc, List.length_cons, many, first, nestingOfItems]
      by_cases fits : item.nesting ≤ budget
      · rw [if_pos fits]
        simp only [ih (fun item member => reads item (by simp [member])), fits, Nat.max_le,
          true_and, List.reverse_cons, List.append_assoc, List.singleton_append]
      · rw [if_neg fits, if_neg (by omega)]

theorem many_writePairs {pairs : List (MsgPack × MsgPack)}
    (reads : ∀ pair ∈ pairs, Reads pair.1 read ∧ Reads pair.2 read)
    (budget : Nat) (before : List (MsgPack × MsgPack)) (rest : List UInt8) :
    many (pair (read budget)) pairs.length before (writePairs pairs ++ rest) =
      if nestingOfPairs pairs ≤ budget then .ok (before.reverse ++ pairs, rest)
      else .error .depth := by
  induction pairs generalizing before with
  | nil => simp [writePairs, many, nestingOfPairs]
  | cons entry more ih =>
      obtain ⟨key, value⟩ := entry
      obtain ⟨readsKey, readsValue⟩ := reads (key, value) (by simp)
      have first := readsKey budget (value.write ++ (writePairs more ++ rest))
      have second := readsValue budget (writePairs more ++ rest)
      rw [writePairs, List.append_assoc, List.append_assoc, List.length_cons, many, pair, first,
        nestingOfPairs]
      by_cases fitsKey : key.nesting ≤ budget
      · rw [if_pos fitsKey]
        simp only [second]
        by_cases fitsValue : value.nesting ≤ budget
        · rw [if_pos fitsValue]
          simp only [ih (fun pair member => reads pair (by simp [member])), fitsKey, fitsValue,
            Nat.max_le, true_and, List.reverse_cons, List.append_assoc, List.singleton_append]
        · rw [if_neg fitsValue, if_neg (by omega)]
      · rw [if_neg fitsKey, if_neg (by omega)]

/-- A byte read as a signed number is the number it was made of. -/
theorem toSigned_ofInt {type : Int} (least : -0x80 ≤ type) (greatest : type < 0x80) :
    toSigned 1 (UInt8.ofInt type).toNat = type := by
  have byte : ((UInt8.ofInt type).toNat : Int) = type % 256 := by
    rw [UInt8.ofInt, UInt8.toNat_ofNat']
    omega
  unfold toSigned
  simp only [Nat.pow_eq]
  split <;> push_cast <;> omega

theorem reads_string {bytes : List UInt8} (fits : bytes.length < lengthLimit) :
    Reads (string bytes) read := by
  refine reads_of_levels fun budget rest => ?_
  rw [write, lengthField_of_lt fits, List.append_assoc, Level.read_stringHead _ _ fits,
    Level.stringBody, levelOf_budget, nesting]
  by_cases admitted : budget < 2
  · rw [if_pos admitted, if_neg (by omega)]
  · rw [if_neg admitted, if_pos (by omega), body_append]

theorem reads_binary {bytes : List UInt8} (fits : bytes.length < lengthLimit) :
    Reads (binary bytes) read := by
  refine reads_of_levels fun budget rest => ?_
  rw [write, lengthField_of_lt fits, List.append_assoc, Level.read_binaryHead _ _ fits,
    Level.binaryBody, levelOf_budget, nesting]
  by_cases admitted : budget < 1
  · rw [if_pos admitted, if_neg (by omega)]
  · rw [if_neg admitted, if_pos (by omega), body_append]

theorem reads_extension {type : Int} {bytes : List UInt8} (least : -0x80 ≤ type)
    (greatest : type < 0x80) (fits : bytes.length < lengthLimit) :
    Reads (extension type bytes) read := by
  have marked : (UInt8.ofInt type :: bytes) = bigEndian 1 (UInt8.ofInt type).toNat ++ bytes := by
    simp [bigEndian]
  refine reads_of_levels fun budget rest => ?_
  rw [write, lengthField_of_lt fits, List.append_assoc, Level.read_extensionHead _ _ fits,
    Level.extensionBody, nesting, marked, List.append_assoc,
    unsigned_bigEndian 1 _ (UInt8.toNat_lt _), levelOf_budget]
  by_cases admitted : budget < 2
  · rw [if_pos admitted, ite_self, if_neg (by omega)]
  · rw [if_neg (by omega), if_neg admitted, if_pos (by omega), body_append,
      toSigned_ofInt least greatest]

theorem reads_array {items : List MsgPack} (fits : items.length < lengthLimit)
    (reads : ∀ item ∈ items, Reads item read) : Reads (array items) read := by
  refine reads_of_levels fun budget rest => ?_
  rw [write, lengthField_of_lt fits, List.append_assoc, Level.read_arrayHead _ _ fits,
    Level.arrayBody, nesting]
  cases budget with
  | zero => rw [if_neg (by omega)]; rfl
  | succ budget =>
      have inside := many_writeItems reads budget [] rest
      simp only [levelOf, inside]
      by_cases admitted : nestingOfItems items ≤ budget
      · rw [if_pos admitted, if_pos (by omega), List.reverse_nil, List.nil_append]
      · rw [if_neg admitted, if_neg (by omega)]

theorem reads_map {pairs : List (MsgPack × MsgPack)} (fits : pairs.length < lengthLimit)
    (reads : ∀ pair ∈ pairs, Reads pair.1 read ∧ Reads pair.2 read) : Reads (map pairs) read := by
  refine reads_of_levels fun budget rest => ?_
  rw [write, lengthField_of_lt fits, List.append_assoc, Level.read_mapHead _ _ fits,
    Level.mapBody, nesting]
  cases budget with
  | zero => rw [if_neg (by omega)]; rfl
  | succ budget =>
      have inside := many_writePairs reads budget [] rest
      simp only [levelOf, inside]
      by_cases admitted : nestingOfPairs pairs ≤ budget
      · rw [if_pos admitted, if_pos (by omega), List.reverse_nil, List.nil_append]
      · rw [if_neg admitted, if_neg (by omega)]

/-- A written document is read back, whatever follows it. -/
theorem reads_write {raw : MsgPack} (sized : raw.Sized) (ranged : raw.Ranged) :
    Reads raw read := by
  induction raw with
  | nil =>
      exact reads_of_levels fun budget rest => by
        simp [write, Level.read, Level.afterMarker, nesting]
  | bool b =>
      refine reads_of_levels fun budget rest => ?_
      cases b <;> simp [write, Level.read, Level.afterMarker, nesting]
  | integer n =>
      obtain ⟨⟨least, greatest⟩, -⟩ := ranged_iff.mp ranged
      refine reads_of_levels fun budget rest => ?_
      have shallow : (integer n).nesting ≤ budget + 1 := Nat.le_add_left 1 budget
      rw [write, Level.read_writeInteger _ _ least greatest, if_pos shallow]
  | single bits =>
      refine reads_of_levels fun budget rest => ?_
      have shallow : (single bits).nesting ≤ budget + 1 := Nat.le_add_left 1 budget
      rw [write, Level.read_field _ rest 4 bits.toNat (UInt32.toNat_lt _)
        (fun n s => .ok (.single (UInt32.ofNat n), s)) (fun _ => rfl), if_pos shallow,
        UInt32.ofNat_toNat]
  | double x =>
      refine reads_of_levels fun budget rest => ?_
      have shallow : (double x).nesting ≤ budget + 1 := Nat.le_add_left 1 budget
      rw [write, Level.read_field _ rest 8 x.bits.toNat (UInt64.toNat_lt _)
        (fun n s => .ok (.double ⟨UInt64.ofNat n⟩, s)) (fun _ => rfl), if_pos shallow,
        UInt64.ofNat_toNat]
  | string bytes => exact reads_string (sized_iff.mp sized).1
  | binary bytes => exact reads_binary (sized_iff.mp sized).1
  | array items ih =>
      obtain ⟨fits, sizedItems⟩ := sized_iff.mp sized
      obtain ⟨-, rangedItems⟩ := ranged_iff.mp ranged
      exact reads_array fits fun item member =>
        ih item member (sizedItems item member) (rangedItems item member)
  | map pairs ih =>
      obtain ⟨fits, sizedPairs⟩ := sized_iff.mp sized
      obtain ⟨-, rangedPairs⟩ := ranged_iff.mp ranged
      have child {pair : MsgPack × MsgPack} (member : pair ∈ pairs) :
          pair.1 ∈ (map pairs).children ∧ pair.2 ∈ (map pairs).children :=
        ⟨List.mem_flatMap.mpr ⟨pair, member, by simp⟩, List.mem_flatMap.mpr ⟨pair, member, by simp⟩⟩
      exact reads_map fits fun pair member =>
        ⟨(ih pair member).1 (sizedPairs _ (child member).1) (rangedPairs _ (child member).1),
          (ih pair member).2 (sizedPairs _ (child member).2) (rangedPairs _ (child member).2)⟩
  | extension type bytes =>
      obtain ⟨⟨least, greatest⟩, -⟩ := ranged_iff.mp ranged
      exact reads_extension least greatest (sized_iff.mp sized).1

/-- What is written of a string past the limit is what is written of its front, and behind it the
bytes that the length leaves out. -/
theorem write_string_append {front rest : List UInt8} (length : rest.length = lengthLimit) :
    (string (front ++ rest)).write = (string front).write ++ rest := by
  rw [write, write, List.length_append, length, lengthField_add_limit, List.append_assoc]

theorem ne_nil_of_length_limit {bytes : List UInt8} (long : bytes.length = lengthLimit) :
    bytes ≠ [] := by
  refine List.ne_nil_of_length_pos ?_
  rw [long]
  decide

/-- A string as long as the limit is announced as the empty one. -/
theorem write_string_of_length {bytes : List UInt8} (length : bytes.length = lengthLimit) :
    (string bytes).write = (string []).write ++ bytes := by
  rw [← write_string_append length, List.nil_append]

end ScriptHost.MsgPack
