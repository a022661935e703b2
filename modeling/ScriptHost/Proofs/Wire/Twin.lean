import ScriptHost.Proofs.Json.Canonical
import ScriptHost.Proofs.MsgPack.Extent
import ScriptHost.Proofs.Wire.RoundTrip
import ScriptHost.Proofs.Wire.TextPlaces

set_option autoImplicit false

namespace ScriptHost.Wire

/-- A type, and a document in either form for it. -/
structure Twin where
  ty : Ty
  raw : MsgPack
  document : Json

namespace Twin

/-- Both documents hold one value of the type. Under a dynamic type the binary form has a pair of a
notation and the value, where the text form has an object of the two. -/
inductive Alike : Twin → Prop
  | null (ty : Ty) : Alike ⟨ty, .nil, .null⟩
  | bool (b : Bool) : Alike ⟨.bool, .bool b, .bool b⟩
  | integer {n : Int} (least : -0x8000000000000000 ≤ n) (greatest : n < 0x10000000000000000) :
      Alike ⟨.number, .integer n, .integer n⟩
  | float {x : Binary64} (finite : x.isFinite = true) : Alike ⟨.number, .double x, .float x⟩
  | string (text : String) : Alike ⟨.string, .ofText text, .string text⟩
  | array {ty : Ty} {twins : List Twin}
      (types : ty.itemTypes? twins.length = some (twins.map Twin.ty))
      (each : ∀ twin ∈ twins, Alike twin) :
      Alike ⟨ty, .array (twins.map Twin.raw), .array (twins.map Twin.document)⟩
  | object {ty : Ty} {twins : List (String × Twin)} (sorted : Dict.Sorted twins)
      (types : ty.entryTypes? (Dict.keys twins) =
        some (twins.map fun entry => (entry.1, entry.2.ty)))
      (each : ∀ entry ∈ twins, Alike entry.2) :
      Alike ⟨ty, Binary.mapDocument (twins.map fun entry => (entry.1, entry.2.raw)),
        .object (twins.map fun entry => (entry.1, entry.2.document))⟩
  | dynamic {twin : Twin} (typed : twin.ty ≠ .dynamic) (ordered : twin.ty.Ordered)
      (inside : Alike twin) :
      Alike ⟨.dynamic, .array [.binary twin.ty.toBytes, twin.raw],
        .object [("type", twin.ty.toJson), ("value", twin.document)]⟩

theorem depth_lt_array {twins : List Twin} {twin : Twin} (member : twin ∈ twins) :
    twin.document.depth < (Json.array (twins.map Twin.document)).depth :=
  Json.depth_item_lt (List.mem_map_of_mem member)

theorem depth_lt_object {twins : List (String × Twin)} {entry : String × Twin}
    (member : entry ∈ twins) : entry.2.document.depth <
      (Json.object (twins.map fun entry => (entry.1, entry.2.document))).depth := by
  have field : (entry.1, entry.2.document) ∈ twins.map fun entry => (entry.1, entry.2.document) :=
    List.mem_map_of_mem member
  exact Json.depth_field_lt field

namespace Alike

/-- The text document is read back. -/
theorem reads {twin : Twin} (alike : twin.Alike) : Json.Reads twin.document := by
  induction alike with
  | null => exact Json.reads_null
  | bool b => exact Json.reads_bool b
  | integer least greatest => exact Json.reads_integer least greatest
  | float finite => exact Json.reads_float finite
  | string text => exact Json.reads_string text
  | array _ _ ih =>
      apply Json.reads_array
      rwa [List.forall_mem_map]
  | object sorted _ _ ih =>
      apply Json.reads_object
      · rwa [Dict.Sorted, Dict.keys_map]
      · rwa [List.forall_mem_map]
  | dynamic _ ordered _ ih =>
      apply Json.reads_object
      · change List.Pairwise (· < ·) ["type", "value"]
        decide
      · simp only [List.forall_mem_cons]
        exact ⟨Ty.reads_toJson ordered, ih, List.forall_mem_nil _⟩

/-- The binary document nests hardly more than twice as deep as the text document. -/
theorem nesting_le {twin : Twin} (alike : twin.Alike) :
    twin.raw.nesting ≤ 2 * twin.document.depth + 3 := by
  induction alike with
  | null | bool | integer | float | string => simp [MsgPack.nesting, MsgPack.ofText]
  | @array ty twins _ _ ih =>
      have deepest : MsgPack.nestingOfItems (twins.map Twin.raw) ≤
          2 * (Json.array (twins.map Twin.document)).depth + 1 := by
        apply MsgPack.nestingOfItems_le_iff.mpr
        rw [List.forall_mem_map]
        intro twin member
        have below := depth_lt_array member
        have inside := ih twin member
        omega
      change 2 + MsgPack.nestingOfItems (twins.map Twin.raw) ≤
        2 * (Json.array (twins.map Twin.document)).depth + 3
      omega
  | @object ty twins _ _ _ ih =>
      -- a key is on the third level of the binary document, whatever the text document holds
      let raws := twins.map fun entry => (entry.1, entry.2.raw)
      let documents := twins.map fun entry => (entry.1, entry.2.document)
      have deepest :
          MsgPack.nestingOfPairs (raws.map fun entry => (.ofText entry.1, entry.2)) ≤
            2 * (Json.object documents).depth + 1 := by
        apply MsgPack.nestingOfPairs_le_iff.mpr
        simp only [raws, List.forall_mem_map]
        intro entry member
        have below : entry.2.document.depth < (Json.object documents).depth :=
          depth_lt_object member
        have inside := ih entry member
        exact ⟨show 3 ≤ _ by omega, show entry.2.raw.nesting ≤ _ by omega⟩
      change 2 + MsgPack.nestingOfPairs (raws.map fun entry => (.ofText entry.1, entry.2)) ≤
        2 * (Json.object documents).depth + 3
      omega
  | @dynamic twin _ _ _ ih =>
      simp only [MsgPack.nesting, MsgPack.nestingOfItems, Json.depth, Json.depthOfFields]
      omega

/-- What the reader of the text form admits, the reader of notations admits. -/
theorem legible {twin : Twin} (alike : twin.Alike)
    (shallow : twin.document.depth ≤ Json.depthLimit) : twin.raw.Legible := by
  induction alike with
  | null | bool | integer | float => exact MsgPack.legible_of_scalar rfl (by simp)
  | string text => exact MsgPack.legible_of_scalar rfl (by simp [MsgPack.ofText])
  | array _ _ ih =>
      apply MsgPack.legible_array
      rw [List.forall_mem_map]
      intro twin member
      exact ih twin member (Nat.le_trans (Nat.le_of_lt (depth_lt_array member)) shallow)
  | object _ _ _ ih =>
      apply Binary.legible_mapDocument
      rw [List.forall_mem_map]
      intro entry member
      exact ih entry member (Nat.le_trans (Nat.le_of_lt (depth_lt_object member)) shallow)
  | dynamic _ ordered _ ih =>
      simp only [Json.depth, Json.depthOfFields] at shallow
      apply MsgPack.legible_pair
      · exact MsgPack.isLegible_toBytes ordered (by omega)
      · exact ih (by omega)

/-- Where there is a value at every place, there are as many values as places. -/
theorem exists_read_array {ty : Ty} {twins : List Twin} (types : ty.itemTypes? twins.length =
      some (twins.map Twin.ty))
    (each : ∀ twin ∈ twins, ∃ value, Binary.read twin.raw twin.ty = .ok value ∧
      Text.read twin.document twin.ty = .ok value) :
    ∃ value, Binary.read (.array (twins.map Twin.raw)) ty = .ok value ∧
      Text.read (.array (twins.map Twin.document)) ty = .ok value := by
  have : Nonempty Value := ⟨.null⟩
  choose! valueOf binary text using each
  refine ⟨.sequenceOf ty (twins.map valueOf), ?_, ?_⟩
  · rw [Binary.read_array (Ty.ne_dynamic_of_itemTypes? types)]
    apply readArray_eq_ok.mpr
    refine ⟨twins.map Twin.ty, by rwa [List.length_map], twins.map valueOf, ?_, rfl⟩
    rw [List.zipWith_map, List.zipWith_self, List.map_map]
    exact List.map_congr_left binary
  · rw [Text.read_array (Ty.ne_dynamic_of_itemTypes? types)]
    apply readArray_eq_ok.mpr
    refine ⟨twins.map Twin.ty, by rwa [List.length_map], twins.map valueOf, ?_, rfl⟩
    rw [List.zipWith_map, List.zipWith_self, List.map_map]
    exact List.map_congr_left text

theorem exists_read_object {ty : Ty} {twins : List (String × Twin)} (ordered : ty.Ordered)
    (sorted : Dict.Sorted twins)
    (types : ty.entryTypes? (Dict.keys twins) = some (twins.map fun entry => (entry.1, entry.2.ty)))
    (each : ∀ entry ∈ twins, ∃ value, Binary.read entry.2.raw entry.2.ty = .ok value ∧
      Text.read entry.2.document entry.2.ty = .ok value) :
    ∃ value, Binary.read (Binary.mapDocument (twins.map fun entry => (entry.1, entry.2.raw))) ty =
        .ok value ∧
      Text.read (.object (twins.map fun entry => (entry.1, entry.2.document))) ty = .ok value := by
  have : Nonempty Value := ⟨.null⟩
  choose! valueOf binary text using each
  let values := twins.map fun entry => (entry.1, valueOf entry)
  refine ⟨.collectionOf ty values, ?_, ?_⟩
  · rw [Binary.read_mapDocument]
    apply Binary.readMap_of_places ordered sorted types
    · rw [Dict.keys_map, Dict.keys_map]
    · rw [Dict.keys_map, Dict.keys_map]
    · rw [List.zipWith_map, List.zipWith_self, List.map_map]
      apply List.map_congr_left
      intro entry member
      rw [binary entry member]
      rfl
  · rw [Text.read_object (Ty.ne_dynamic_of_entryTypes? types)]
    apply (Text.readObject_eq_ok ordered ?_).mpr
    · refine ⟨twins.map fun entry => (entry.1, entry.2.ty), ?_, ?_, values, ?_, rfl⟩
      · rwa [Dict.keys_map]
      · rw [Dict.keys_map, Dict.keys_map]
      · rw [Text.results, List.zipWith_map, List.zipWith_self, List.map_map]
        apply List.map_congr_left
        intro entry member
        rw [text entry member]
        rfl
    · rwa [Dict.Sorted, Dict.keys_map]

theorem exists_read_dynamic {twin : Twin} (typed : twin.ty ≠ .dynamic) (ordered : twin.ty.Ordered)
    (shallow : twin.ty.toJson.depth ≤ Json.depthLimit)
    (inside : ∃ value, Binary.read twin.raw twin.ty = .ok value ∧
      Text.read twin.document twin.ty = .ok value) :
    ∃ value, Binary.read (.array [.binary twin.ty.toBytes, twin.raw]) .dynamic = .ok value ∧
      Text.read (.object [("type", twin.ty.toJson), ("value", twin.document)]) .dynamic =
        .ok value := by
  obtain ⟨value, binary, text⟩ := inside
  refine ⟨value, ?_, ?_⟩
  · simp only [Binary.read, Binary.declaredType_toBytes typed ordered shallow]
    exact binary
  · have declared : Text.declaredType twin.ty.toJson = .ok twin.ty := by
      rw [Text.declaredType, Ty.ofJson_toJson]
      cases same : twin.ty <;> first | rfl | exact absurd same typed
    have type : Dict.get? [("type", twin.ty.toJson), ("value", twin.document)] "type" =
        some twin.ty.toJson := rfl
    have content : Dict.get? [("type", twin.ty.toJson), ("value", twin.document)] "value" =
        some twin.document := rfl
    rw [Text.read, Text.fieldReaders_eq, Dict.get?_map, type, content]
    simp only [Option.map_some, Text.readDynamic, declared]
    exact text

/-- Both documents are read as one value. -/
theorem exists_read {twin : Twin} (alike : twin.Alike) (ordered : twin.ty.Ordered)
    (shallow : twin.document.depth ≤ Json.depthLimit) :
    ∃ value, Binary.read twin.raw twin.ty = .ok value ∧
      Text.read twin.document twin.ty = .ok value := by
  induction alike with
  | null ty => exact ⟨.null, rfl, rfl⟩
  | bool b => exact ⟨.bool b, rfl, rfl⟩
  | @integer n => exact ⟨.ofInt n, rfl, rfl⟩
  | @float x finite =>
      refine ⟨.number x, ?_, rfl⟩
      simp [Binary.read, Binary.readScalar, Binary.numberOf?, Binary64.isNaN_of_isFinite finite]
  | string text =>
      refine ⟨.string text, ?_, rfl⟩
      have valid : (MsgPack.ofText text).asText? = some text := ofUtf8?_utf8 text
      simp only [MsgPack.ofText] at valid ⊢
      simp only [Binary.read, Binary.readScalar, valid]
  | array types _ ih =>
      have typesOrdered := Ty.ordered_of_itemTypes? ordered types
      apply exists_read_array types
      intro twin member
      exact ih twin member (typesOrdered _ (List.mem_map_of_mem member))
        (Nat.le_trans (Nat.le_of_lt (depth_lt_array member)) shallow)
  | @object ty twins sorted types _ ih =>
      have typesOrdered := Ty.ordered_of_entryTypes? ordered types
      apply exists_read_object ordered sorted types
      intro entry member
      have place : (entry.1, entry.2.ty) ∈ twins.map fun entry => (entry.1, entry.2.ty) :=
        List.mem_map_of_mem member
      exact ih entry member (typesOrdered _ place)
        (Nat.le_trans (Nat.le_of_lt (depth_lt_object member)) shallow)
  | dynamic typed own _ ih =>
      simp only [Json.depth, Json.depthOfFields] at shallow
      exact exists_read_dynamic typed own (by omega) (ih own (by omega))

end Alike

end Twin

end ScriptHost.Wire
