import ScriptHost.Proofs.Ty.Nesting
import ScriptHost.Proofs.Value.Plain
import ScriptHost.Proofs.Wire.Settled
import ScriptHost.Proofs.Wire.Stable
import ScriptHost.Proofs.Wire.Typed

set_option autoImplicit false

namespace ScriptHost

namespace Value

theorem ordered_ofJson {document : Json} (canonical : Json.Canonical document) :
    (ofJson document).Ordered := by
  induction canonical with
  | null | bool | integer | float | string =>
      exact ordered_iff.mpr ⟨trivial, List.forall_mem_nil _⟩
  | array _ ih =>
      rw [ofJson, itemsOfJson_eq]
      exact ordered_iff.mpr ⟨trivial, List.forall_mem_map.mpr ih⟩
  | object sorted _ ih =>
      rw [ofJson, entriesOfJson_eq]
      refine ordered_iff.mpr ⟨(Dict.sorted_map ofJson).mpr sorted, fun child member => ?_⟩
      obtain ⟨entry, here, rfl⟩ := List.mem_map.mp member
      obtain ⟨field, inside, rfl⟩ := List.mem_map.mp here
      exact ih field inside

theorem nestingOfElements_ofJson {items : List Json}
    (each : ∀ item ∈ items, (ofJson item).ty.nesting = 2 * item.depth) :
    Ty.nestingOfElements (items.map fun item => (ofJson item).ty) =
      2 * Json.depthOfItems items := by
  induction items with
  | nil => rfl
  | cons item rest ih =>
      obtain ⟨first, others⟩ := List.forall_mem_cons.mp each
      rw [List.map_cons, Ty.nestingOfElements, Json.depthOfItems, first, ih others,
        Nat.mul_max_mul_left]

theorem nestingOfAttributes_ofJson {fields : List (String × Json)}
    (each : ∀ field ∈ fields, (ofJson field.2).ty.nesting = 2 * field.2.depth) :
    Ty.nestingOfAttributes (fields.map fun field => (field.1, (ofJson field.2).ty)) =
      2 * Json.depthOfFields fields := by
  induction fields with
  | nil => rfl
  | cons field rest ih =>
      obtain ⟨first, others⟩ := List.forall_mem_cons.mp each
      rw [List.map_cons, Ty.nestingOfAttributes, Json.depthOfFields, first, ih others,
        Nat.mul_max_mul_left]

theorem nesting_ty_ofJson (document : Json) :
    (ofJson document).ty.nesting = 2 * document.depth := by
  induction document with
  | null | bool | integer | float | string => rfl
  | array items ih =>
      rw [ofJson, itemsOfJson_eq, ty_tuple, List.map_map, Ty.nesting, Json.depth]
      have inside := nestingOfElements_ofJson ih
      rw [Nat.mul_add, ← inside]
      rfl
  | object fields ih =>
      rw [ofJson, entriesOfJson_eq, ty_object, List.map_map, Ty.nesting, Json.depth]
      have inside := nestingOfAttributes_ofJson ih
      rw [Nat.mul_add, ← inside]
      rfl

/-- Under a dynamic type a value comes back in the shape of its own type. -/
theorem reshaped_ty (value : Value) : value.reshaped .dynamic = value.reshaped value.ty := by
  by_cases untyped : value.ty = .dynamic
  · rw [untyped]
  · rw [reshaped_dynamic untyped, reshaped_of_typed value untyped]

theorem itemTypes?_own (items : List Value) :
    (tuple items).ty.itemTypes? items.length = some (items.map ty) := by
  rw [ty_tuple]
  exact if_pos (List.length_map ty).symm

/-- A tuple comes back item by item under the types of the items. -/
theorem reshaped_tuple (items : List Value) :
    (tuple items).reshaped (tuple items).ty =
      tuple (items.map fun item => item.reshaped item.ty) := by
  rw [reshaped_of_items? rfl (itemTypes?_own items), ty_tuple, List.zipWith_map_right,
    List.zipWith_self]
  rfl

theorem reshaped_object {entries : List (String × Value)} (sorted : Dict.Sorted entries) :
    (object entries).reshaped (object entries).ty =
      object (entries.map fun entry => (entry.1, entry.2.reshaped entry.2.ty)) := by
  rw [reshaped_of_entries? sorted rfl (entryTypes?_own entries), ty_object, List.map_map]
  refine congrArg object (List.map_congr_left fun entry member => ?_)
  rw [Function.comp_apply, Wire.entry_of_mem sorted member]

theorem equal_reshaped_ofJson {document : Json} (canonical : Json.Canonical document) :
    (ofJson document).equal ((ofJson document).reshaped (ofJson document).ty) = true := by
  induction canonical with
  | null => rfl
  | bool value => exact beq_self_eq_true value
  | string text => exact beq_self_eq_true text
  | @integer n _ _ => exact Binary64.equal_unsignZero (Binary64.isNaN_ofInt n)
  | float finite => exact Binary64.equal_unsignZero (Binary64.isNaN_of_isFinite finite)
  | array _ ih =>
      rw [ofJson, itemsOfJson_eq, reshaped_tuple, equal, equalItems_iff,
        List.forall₂_map_right_iff, List.forall₂_same]
      exact List.forall_mem_map.mpr ih
  | @object fields sorted _ ih =>
      have ascending : Dict.Sorted (fields.map fun field => (field.1, ofJson field.2)) :=
        (Dict.sorted_map ofJson).mpr sorted
      rw [ofJson, entriesOfJson_eq, reshaped_object ascending, equal, equalEntries_iff,
        List.forall₂_map_right_iff, List.forall₂_same]
      exact List.forall_mem_map.mpr fun field member => ⟨rfl, ih field member⟩

end Value

namespace Wire

namespace Binary

/-- An array is written if every item of it is written under its own type. -/
theorem document_ofJson_array {items : List Json} {raw : Json → MsgPack}
    (written : ∀ item ∈ items, document (.ofJson item) (Value.ofJson item).ty = .ok (raw item)) :
    document (.ofJson (.array items)) (Value.ofJson (.array items)).ty =
      .ok (.array (items.map raw)) := by
  let values := items.map Value.ofJson
  have typed : (Value.tuple values).ty ≠ .dynamic := by simp [Value.ty_tuple]
  have results : List.zipWith document values (values.map Value.ty) =
      (items.map raw).map .ok := by
    rw [List.zipWith_map_right, List.zipWith_self, List.map_map, List.map_map]
    exact List.map_congr_left written
  rw [Value.ofJson, Value.itemsOfJson_eq, document_of_typed _ typed, write_of_items? _ rfl]
  exact writeItems_eq_ok.mpr ⟨_, Value.itemTypes?_own values, _, results, rfl⟩

theorem document_ofJson_object {fields : List (String × Json)} {raw : String × Json → MsgPack}
    (sorted : Dict.Sorted fields)
    (written : ∀ field ∈ fields,
      document (.ofJson field.2) (Value.ofJson field.2).ty = .ok (raw field)) :
    document (.ofJson (.object fields)) (Value.ofJson (.object fields)).ty =
      .ok (mapDocument (fields.map fun field => (field.1, raw field))) := by
  let entries := fields.map fun field => (field.1, Value.ofJson field.2)
  have ascending : Dict.Sorted entries := (Dict.sorted_map Value.ofJson).mpr sorted
  have results : ((entries.map fun entry => (entry.1, entry.2.ty)).map fun field =>
      (field.1, document (Value.entry entries field.1) field.2)) =
        (fields.map fun field => (field.1, raw field)).map fun entry => (entry.1, .ok entry.2) := by
    rw [List.map_map, List.map_map, List.map_map]
    refine List.map_congr_left fun field member => ?_
    have held : Value.entry entries field.1 = .ofJson field.2 :=
      entry_of_mem ascending (List.mem_map_of_mem member)
    simp only [Function.comp_apply, held, written field member]
  have typed : (Value.object entries).ty ≠ .dynamic := by simp [Value.ty_object]
  rw [Value.ofJson, Value.entriesOfJson_eq, document_of_typed _ typed, write_of_entries? _ rfl]
  exact (writeEntries_eq_ok document_null ascending).mpr
    ⟨_, Value.entryTypes?_own entries, _, results, rfl⟩

/-- What was read from a plain document can be written with its own type, and nests no deeper than
the document. -/
theorem exists_document_ofJson {plain : Json} (canonical : Json.Canonical plain) :
    ∃ inner, document (.ofJson plain) (Value.ofJson plain).ty = .ok inner ∧
      inner.Compact plain.depth := by
  induction canonical with
  | null => exact ⟨.nil, rfl, MsgPack.compact_of_scalar 0 rfl (by simp)⟩
  | bool b => exact ⟨.bool b, rfl, MsgPack.compact_of_scalar 0 rfl (by simp)⟩
  | string text =>
      exact ⟨.ofText text, rfl, MsgPack.compact_of_scalar 0 rfl (by simp [MsgPack.ofText])⟩
  | @integer n _ _ => exact exists_write_number 0 (Binary64.isNaN_ofInt n)
  | float finite => exact exists_write_number 0 (Binary64.isNaN_of_isFinite finite)
  | @array items _ ih =>
      choose! raw written compact using ih
      refine ⟨.array (items.map raw), document_ofJson_array written, ?_⟩
      rw [Json.depth, Nat.add_comm]
      apply MsgPack.compact_array
      rw [List.forall_mem_map]
      intro item member
      exact (compact item member).mono (Json.depthOfItems_le_iff.mp (Nat.le_refl _) item member)
  | @object fields sorted _ ih =>
      choose! raw written compact using ih
      refine ⟨_, document_ofJson_object sorted written, ?_⟩
      rw [Json.depth, Nat.add_comm]
      apply compact_mapDocument
      rw [List.forall_mem_map]
      intro field member
      exact (compact field member).mono (Json.depthOfFields_le_iff.mp (Nat.le_refl _) field member)

/-- With its type a plain document of at most 63 levels is within the limits of its readers. -/
theorem exists_document_dynamic {plain : Json} (canonical : Json.Canonical plain) :
    ∃ raw, document (.ofJson plain) .dynamic = .ok raw ∧
      (plain.depth ≤ 63 → raw.Legible ∧ raw.nesting ≤ MsgPack.depthBudget) := by
  obtain ⟨inner, made, compact⟩ := exists_document_ofJson canonical
  have nesting := compact.nesting
  by_cases untyped : (Value.ofJson plain).ty = .dynamic
  -- a null has no type to be written with
  · rw [untyped] at made
    refine ⟨inner, made, fun shallow => ⟨MsgPack.legible_of_textual compact.textual, ?_⟩⟩
    show inner.nesting ≤ 1024
    omega
  · rw [document_of_typed _ untyped] at made
    refine ⟨.array [.binary (Value.ofJson plain).ty.toBytes, inner], ?_, fun shallow => ⟨?_, ?_⟩⟩
    · rw [document_dynamic_of_typed untyped, made]
      rfl
    · have depth : (Value.ofJson plain).ty.toJson.depth ≤ 127 := by
        rw [Ty.depth_toJson, Value.nesting_ty_ofJson]
        omega
      exact legible_of_compact compact (Value.ordered_ty (Value.ordered_ofJson canonical)) depth
    · show (MsgPack.array [.binary _, inner]).nesting ≤ 1024
      simp only [MsgPack.nesting, MsgPack.nestingOfItems]
      omega

end Binary

/-- A plain document can be written with its own type, and is read back as an equal value if it has
at most 63 levels. The length fields of the format must hold the lengths in what is written. -/
theorem exists_encode_ofJson {plain : Json} (canonical : Json.Canonical plain) :
    ∃ payload, encode (.ofJson plain) .dynamic = .ok payload ∧
      (plain.depth ≤ 63 →
        (∀ raw, Binary.document (.ofJson plain) .dynamic = .ok raw → raw.Sized) →
          ∃ back, decode payload .dynamic = .ok back ∧
            (Value.ofJson plain).equal back = true) := by
  obtain ⟨raw, made, readable⟩ := Binary.exists_document_dynamic canonical
  refine ⟨_, encode_eq_ok.mpr ⟨raw, made, rfl⟩, fun shallow sized => ?_⟩
  obtain ⟨legible, nested⟩ := readable shallow
  have ordered := Value.ordered_ofJson canonical
  have read :=
    Binary.decode_written ordered Value.ordered_dynamic made (sized raw made) legible nested
  refine ⟨_, decode_ofBinary.mpr read, ?_⟩
  rw [Value.reshaped_ty]
  exact Value.equal_reshaped_ofJson canonical

end Wire

end ScriptHost
