import ScriptHost.Proofs.MsgPack.RoundTrip

set_option autoImplicit false

namespace ScriptHost.MsgPack

theorem length_stringHead_pos (length : Nat) : 0 < (stringHead length).length := by
  unfold stringHead
  repeat' split
  all_goals simp

theorem length_binaryHead_pos (length : Nat) : 0 < (binaryHead length).length := by
  unfold binaryHead
  repeat' split
  all_goals simp

theorem length_arrayHead_pos (length : Nat) : 0 < (arrayHead length).length := by
  unfold arrayHead
  repeat' split
  all_goals simp

theorem length_mapHead_pos (length : Nat) : 0 < (mapHead length).length := by
  unfold mapHead
  repeat' split
  all_goals simp

theorem length_writeInteger_pos (n : Int) : 0 < (writeInteger n).length := by
  unfold writeInteger
  simp only
  repeat' split
  all_goals simp [bigEndian]

theorem length_write_pos (raw : MsgPack) : 0 < raw.write.length := by
  cases raw with
  | nil => simp [write]
  | bool value => simp [write]
  | integer n => exact length_writeInteger_pos n
  | single bits => simp [write]
  | double x => simp [write]
  | string bytes =>
      have := length_stringHead_pos (lengthField bytes.length)
      rw [write, List.length_append]
      omega
  | binary bytes =>
      have := length_binaryHead_pos (lengthField bytes.length)
      rw [write, List.length_append]
      omega
  | array items =>
      have := length_arrayHead_pos (lengthField items.length)
      rw [write, List.length_append]
      omega
  | map pairs =>
      have := length_mapHead_pos (lengthField pairs.length)
      rw [write, List.length_append]
      omega
  | extension type bytes => simp [write]

theorem length_le_writeItems (items : List MsgPack) :
    items.length ≤ (writeItems items).length := by
  induction items with
  | nil => simp
  | cons item rest ih =>
      have := length_write_pos item
      rw [writeItems, List.length_append, List.length_cons]
      omega

theorem length_le_writePairs (pairs : List (MsgPack × MsgPack)) :
    pairs.length ≤ (writePairs pairs).length := by
  induction pairs with
  | nil => simp
  | cons pair rest ih =>
      have := length_write_pos pair.1
      rw [writePairs, List.length_append, List.length_append, List.length_cons]
      omega

theorem size_le_length (raw : MsgPack) : raw.size ≤ raw.write.length := by
  cases raw with
  | array items =>
      have := length_le_writeItems items
      rw [size, write, List.length_append]
      omega
  | map pairs =>
      have := length_le_writePairs pairs
      rw [size, write, List.length_append]
      omega
  | string bytes | binary bytes => simp [size, write]
  | extension type bytes =>
      rw [size, write, List.length_append, List.length_cons]
      omega
  | _ => simp [size]

theorem length_write_item {items : List MsgPack} {item : MsgPack} (member : item ∈ items) :
    item.write.length ≤ (writeItems items).length := by
  induction items with
  | nil => simp at member
  | cons first rest ih =>
      rw [writeItems, List.length_append]
      rcases List.mem_cons.mp member with rfl | later
      · omega
      · have := ih later
        omega

theorem length_write_pair {pairs : List (MsgPack × MsgPack)} {pair : MsgPack × MsgPack}
    (member : pair ∈ pairs) :
    pair.1.write.length + pair.2.write.length ≤ (writePairs pairs).length := by
  induction pairs with
  | nil => simp at member
  | cons first rest ih =>
      rw [writePairs, List.length_append, List.length_append]
      rcases List.mem_cons.mp member with rfl | later
      · omega
      · have := ih later
        omega

theorem length_write_child {raw child : MsgPack} (member : child ∈ raw.children) :
    child.write.length ≤ raw.write.length := by
  cases raw with
  | array items =>
      have inside : child.write.length ≤ (writeItems items).length := length_write_item member
      rw [write, List.length_append]
      omega
  | map pairs =>
      obtain ⟨pair, here, side⟩ := List.mem_flatMap.mp member
      have := length_write_pair here
      rw [write, List.length_append]
      rcases List.mem_pair.mp side with rfl | rfl <;> omega
  | _ => simp [children] at member

/-- A document is within the length fields of the format if all its bytes are. -/
theorem sized_of_length {raw : MsgPack} (fits : raw.write.length < lengthLimit) : raw.Sized := by
  induction raw using childrenInduction with
  | step raw ih =>
      have size := size_le_length raw
      refine sized_iff.mpr ⟨by omega, fun child member => ?_⟩
      have inside := length_write_child member
      exact ih child member (by omega)

theorem nestingOfItems_le_iff {items : List MsgPack} {bound : Nat} :
    nestingOfItems items ≤ bound ↔ ∀ item ∈ items, item.nesting ≤ bound := by
  induction items with
  | nil => simp [nestingOfItems]
  | cons item rest ih => rw [nestingOfItems, Nat.max_le, ih, List.forall_mem_cons]

theorem nestingOfPairs_le_iff {pairs : List (MsgPack × MsgPack)} {bound : Nat} :
    nestingOfPairs pairs ≤ bound ↔
      ∀ pair ∈ pairs, pair.1.nesting ≤ bound ∧ pair.2.nesting ≤ bound := by
  induction pairs with
  | nil => simp [nestingOfPairs]
  | cons pair rest ih => rw [nestingOfPairs, Nat.max_le, Nat.max_le, ih, List.forall_mem_cons]

/-- Documents with at most so many containers nested, and nothing binary in them. -/
structure Compact (levels : Nat) (raw : MsgPack) : Prop where
  nesting : raw.nesting ≤ 2 * levels + 3
  textual : ∀ part ∈ raw.parts, ∀ bytes, part ≠ binary bytes

theorem Compact.mono {fewer more : Nat} {raw : MsgPack} (compact : raw.Compact fewer)
    (within : fewer ≤ more) : raw.Compact more where
  nesting := Nat.le_trans compact.nesting (by omega)
  textual := compact.textual

theorem nesting_of_scalar {raw : MsgPack} (scalar : raw.children = []) : raw.nesting ≤ 3 := by
  cases raw with
  | array items =>
      obtain rfl : items = [] := scalar
      decide
  | map pairs =>
      cases pairs with
      | nil => decide
      | cons pair rest => simp [children] at scalar
  | _ => simp [MsgPack.nesting]

theorem compact_of_scalar {raw : MsgPack} (levels : Nat) (scalar : raw.children = [])
    (textual : ∀ bytes, raw ≠ binary bytes) : raw.Compact levels where
  nesting := by
    have shallow := nesting_of_scalar scalar
    omega
  textual := forall_mem_parts.mpr ⟨textual, by simp [scalar]⟩

theorem compact_array {levels : Nat} {items : List MsgPack}
    (each : ∀ item ∈ items, item.Compact levels) : (array items).Compact (levels + 1) where
  nesting := by
    have inside : nestingOfItems items ≤ 2 * levels + 3 :=
      nestingOfItems_le_iff.mpr fun item member => (each item member).nesting
    rw [MsgPack.nesting]
    omega
  textual := forall_mem_parts.mpr ⟨by simp, fun item member => (each item member).textual⟩

theorem compact_map {levels : Nat} {pairs : List (MsgPack × MsgPack)}
    (each : ∀ pair ∈ pairs, pair.1.Compact levels ∧ pair.2.Compact levels) :
    (map pairs).Compact (levels + 1) where
  nesting := by
    have inside : nestingOfPairs pairs ≤ 2 * levels + 3 :=
      nestingOfPairs_le_iff.mpr fun pair member =>
        ⟨(each pair member).1.nesting, (each pair member).2.nesting⟩
    rw [MsgPack.nesting]
    omega
  textual := by
    refine forall_mem_parts.mpr ⟨by simp, fun child member => ?_⟩
    obtain ⟨pair, inside, side⟩ := List.mem_flatMap.mp member
    rcases List.mem_pair.mp side with rfl | rfl
    · exact (each pair inside).1.textual
    · exact (each pair inside).2.textual

end ScriptHost.MsgPack
