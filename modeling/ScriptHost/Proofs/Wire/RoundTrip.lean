import Mathlib.Tactic.FinCases
import ScriptHost.Proofs.Wire.Reshape

set_option autoImplicit false

namespace ScriptHost

namespace MsgPack

/-- The notation of a type nests no deeper than its reader goes. -/
def IsLegible (raw : MsgPack) : Prop :=
  ∀ ty : Ty, ty.Ordered → raw = .binary ty.toBytes → ty.toJson.depth ≤ Json.depthLimit

/-- The notations of types inside nest no deeper than their reader goes. -/
def Legible (raw : MsgPack) : Prop := ∀ part ∈ raw.parts, part.IsLegible

theorem legible_iff {raw : MsgPack} :
    raw.Legible ↔ raw.IsLegible ∧ ∀ child ∈ raw.children, child.Legible := forall_mem_parts

/-- What can be read as a document is no notation that nests too deep. -/
theorem isLegible_of_parse {bytes : List UInt8} {document : Json}
    (parsed : Json.parse bytes = .ok document) : (binary bytes).IsLegible := by
  intro ty ordered same
  cases same
  by_contra deep
  obtain ⟨error, failed, -⟩ := (Json.parse_render (Ty.reads_toJson ordered)).2 (by omega)
  rw [Ty.toBytes, failed] at parsed
  cases parsed

theorem isLegible_toBytes {ty : Ty} (ordered : ty.Ordered)
    (shallow : ty.toJson.depth ≤ Json.depthLimit) : (binary ty.toBytes).IsLegible :=
  isLegible_of_parse ((Json.parse_render (Ty.reads_toJson ordered)).1 shallow)

theorem isLegible_of_textual {raw : MsgPack} (textual : ∀ bytes, raw ≠ .binary bytes) :
    raw.IsLegible :=
  fun ty _ same => absurd same (textual ty.toBytes)

theorem legible_of_textual {raw : MsgPack}
    (textual : ∀ part ∈ raw.parts, ∀ bytes, part ≠ .binary bytes) : raw.Legible :=
  fun part member => isLegible_of_textual (textual part member)

theorem legible_of_scalar {raw : MsgPack} (scalar : raw.children = [])
    (textual : ∀ bytes, raw ≠ .binary bytes) : raw.Legible :=
  legible_iff.mpr ⟨isLegible_of_textual textual, by simp [scalar]⟩

theorem legible_array {items : List MsgPack} (each : ∀ item ∈ items, item.Legible) :
    (array items).Legible :=
  legible_iff.mpr ⟨isLegible_of_textual (by simp), each⟩

/-- A dynamic pair is legible if its notation and its value are. -/
theorem legible_pair {bytes : List UInt8} {inner : MsgPack} (noted : (binary bytes).IsLegible)
    (legible : inner.Legible) : (array [binary bytes, inner]).Legible := by
  apply legible_array
  intro item member
  rcases List.mem_pair.mp member with rfl | rfl
  · exact legible_iff.mpr ⟨noted, by simp [children]⟩
  · exact legible

end MsgPack

namespace Wire.Binary

variable {α β γ τ ε δ : Type}

/-- What was written at every place is read at every place. -/
theorem zipWith_transfer {write : α → τ → Except ε β} (read : β → τ → Except δ γ)
    (result : α → τ → γ) {items : List α} {places : List τ} {raws : List β}
    (written : List.zipWith write items places = raws.map .ok)
    (step : ∀ item ∈ items, ∀ place ∈ places, ∀ raw ∈ raws, write item place = .ok raw →
      read raw place = .ok (result item place)) :
    List.zipWith read raws places = (List.zipWith result items places).map .ok := by
  induction items generalizing places raws with
  | nil =>
      cases raws with
      | nil => cases places <;> rfl
      | cons raw more => simp at written
  | cons item items ih =>
      cases places with
      | nil =>
          cases raws with
          | nil => rfl
          | cons raw more => simp at written
      | cons place places =>
          cases raws with
          | nil => simp at written
          | cons raw raws =>
              simp only [List.zipWith_cons_cons, List.map_cons, List.cons.injEq] at written ⊢
              refine ⟨step item (by simp) place (by simp) raw (by simp) written.1, ih written.2 ?_⟩
              intro item inItems place inPlaces raw inRaws
              exact step item (by simp [inItems]) place (by simp [inPlaces]) raw (by simp [inRaws])

theorem entries_transfer {write : String × τ → Except ε β} (read : β → τ → Except δ γ)
    (result : String × τ → γ) {fields : List (String × τ)} {raws : List (String × β)}
    (written : (fields.map fun field => (field.1, write field)) =
      raws.map fun entry => (entry.1, .ok entry.2))
    (step : ∀ field ∈ fields, ∀ raw ∈ raws, write field = .ok raw.2 →
      read raw.2 field.2 = .ok (result field)) :
    Dict.keys raws = Dict.keys fields ∧
      List.zipWith (fun raw field => (field.1, read raw.2 field.2)) raws fields =
        (fields.map fun field => (field.1, result field)).map fun entry =>
          (entry.1, .ok entry.2) := by
  induction fields generalizing raws with
  | nil =>
      cases raws with
      | nil => exact ⟨rfl, rfl⟩
      | cons raw more => simp at written
  | cons field fields ih =>
      cases raws with
      | nil => simp at written
      | cons raw raws =>
          simp only [List.map_cons, List.cons.injEq, Prod.mk.injEq] at written
          obtain ⟨⟨name, document⟩, rest⟩ := written
          have first := step field (by simp) raw (by simp) document
          obtain ⟨names, others⟩ := ih rest fun field inFields raw inRaws =>
            step field (by simp [inFields]) raw (by simp [inRaws])
          refine ⟨by rw [Dict.keys_cons, Dict.keys_cons, names, name], ?_⟩
          simp only [List.zipWith_cons_cons, List.map_cons, first, others]

theorem mem_children_mapDocument_iff {raws : List (String × MsgPack)} {child : MsgPack} :
    child ∈ (mapDocument raws).children ↔
      ∃ entry ∈ raws, child = .ofText entry.1 ∨ child = entry.2 := by
  simp only [mapDocument, MsgPack.children, List.flatMap_map, List.mem_flatMap, List.mem_pair]

theorem legible_mapDocument {raws : List (String × MsgPack)}
    (each : ∀ entry ∈ raws, entry.2.Legible) : (mapDocument raws).Legible := by
  refine MsgPack.legible_iff.mpr
    ⟨MsgPack.isLegible_of_textual (by simp [mapDocument]), fun child member => ?_⟩
  obtain ⟨entry, here, side⟩ := mem_children_mapDocument_iff.mp member
  rcases side with rfl | rfl
  · exact MsgPack.legible_of_scalar rfl (by simp [MsgPack.ofText])
  · exact each entry here

theorem mem_children_mapDocument {raws : List (String × MsgPack)} {raw : String × MsgPack}
    (member : raw ∈ raws) : raw.2 ∈ (mapDocument raws).children :=
  mem_children_mapDocument_iff.mpr ⟨raw, member, .inr rfl⟩

/-- The notation in front of a value names the value's type. -/
theorem declaredType_toBytes {ty : Ty} (typed : ty ≠ .dynamic) (ordered : ty.Ordered)
    (shallow : ty.toJson.depth ≤ Json.depthLimit) :
    declaredType (.binary ty.toBytes) = .ok ty := by
  rw [declaredType, Ty.ofBytes_toBytes ordered shallow]
  cases ty <;> first | rfl | exact absurd rfl typed

/-- What is read back from a value's document under a type of its own. -/
def Recovers (value : Value) (writer : Ty → Encoded MsgPack) (shape : Ty → Value) : Prop :=
  value.Ordered → ∀ ty raw, ty.Ordered → raw.Legible → writer ty = .ok raw →
    read raw ty = .ok (shape ty)

/-- Under a dynamic type the type comes first, and then the value under it. -/
theorem recovers_document {value : Value}
    (typed : Recovers value (write value) value.reshape) :
    Recovers value (document value) value.reshaped := by
  intro valueOrdered ty raw typeOrdered legible written
  by_cases untyped : ty = .dynamic
  · subst untyped
    rcases document_dynamic written with ⟨rfl, rfl⟩ | ⟨rfl, rfl⟩ | ⟨known, inner, done, rfl⟩
    · rfl
    · rfl
    · have ordered := Value.ordered_ty valueOrdered
      obtain ⟨-, inside⟩ := MsgPack.legible_iff.mp legible
      have shallow : value.ty.toJson.depth ≤ Json.depthLimit :=
        (MsgPack.legible_iff.mp (inside (.binary value.ty.toBytes) (by simp [MsgPack.children]))).1
          value.ty ordered rfl
      have innerLegible : inner.Legible := inside inner (by simp [MsgPack.children])
      rw [Value.reshaped_dynamic known]
      simp only [read, declaredType_toBytes known ordered shallow]
      exact typed valueOrdered value.ty inner ordered innerLegible done
  · rw [Value.reshaped_of_typed value untyped]
    rw [document_of_typed value untyped] at written
    exact typed valueOrdered ty raw typeOrdered legible written

theorem recovers_items {value : Value} {kind : String} {items : List Value}
    (children : value.children = items)
    (inside : ∀ item ∈ items, Recovers item (document item) item.reshaped) :
    Recovers value (writeItems .array kind (writers items))
      (Value.reshapeItems (Value.reshapers items)) := by
  intro valueOrdered ty raw typeOrdered legible written
  have itemsOrdered := (Value.ordered_iff.mp valueOrdered).2
  rw [children] at itemsOrdered
  rw [writers_eq] at written
  obtain ⟨types, places, raws, results, rfl⟩ := writeItems_eq_ok.mp written
  have typesOrdered := Ty.ordered_of_itemTypes? typeOrdered places
  have rawsLegible := (MsgPack.legible_iff.mp legible).2
  have sameLength : raws.length = items.length :=
    length_of_zipWith results (Ty.length_of_itemTypes? places)
  have back := zipWith_transfer read Value.reshaped results
    fun item inItems type inTypes raw inRaws done =>
      inside item inItems (itemsOrdered item inItems) type raw (typesOrdered type inTypes)
        (rawsLegible raw inRaws) done
  rw [Value.reshapeItems_of_places places, read_array (Ty.ne_dynamic_of_itemTypes? places)]
  exact readArray_eq_ok.mpr ⟨types, sameLength ▸ places, _, back, rfl⟩

theorem recovers_entries {value : Value} {kind : String} {entries : List (String × Value)}
    (children : value.children = entries.map Prod.snd) (names : value.Ordered → Dict.Sorted entries)
    (inside : ∀ entry ∈ entries, Recovers entry.2 (document entry.2) entry.2.reshaped) :
    Recovers value (writeEntries .nil mapDocument kind (entryWriters entries))
      (Value.reshapeEntries (Value.entryReshapers entries)) := by
  intro valueOrdered ty raw typeOrdered legible written
  have sorted := names valueOrdered
  have entriesOrdered := (Value.ordered_iff.mp valueOrdered).2
  rw [children] at entriesOrdered
  rw [entryWriters_eq] at written
  obtain ⟨fields, places, raws, results, rfl⟩ :=
    (writeEntries_eq_ok document_null sorted).mp written
  have typesOrdered := Ty.ordered_of_entryTypes? typeOrdered places
  have rawsLegible := (MsgPack.legible_iff.mp legible).2
  let Back (value : Value) : Prop := ∀ type raw, type.Ordered → raw.Legible →
    document value type = .ok raw → read raw type = .ok (value.reshaped type)
  have entryRecovers (name : String) : Back (Value.entry entries name) := by
    refine Value.forall_entry Back ?_ (fun entry member => ?_) name
    · intro type raw _ _ done
      rw [document_null] at done
      rw [Value.reshaped_null, ← Except.ok.inj done]
      rfl
    · exact inside entry member (entriesOrdered _ (List.mem_map_of_mem member))
  obtain ⟨same, back⟩ := entries_transfer read
    (fun field => (Value.entry entries field.1).reshaped field.2) results
    fun field inFields raw inRaws done =>
      entryRecovers field.1 field.2 raw.2 (typesOrdered field inFields)
        (rawsLegible _ (mem_children_mapDocument inRaws)) done
  rw [Value.reshapeEntries_of_places sorted places, read_mapDocument]
  exact readMap_of_places typeOrdered sorted places same (Dict.keys_map _ fields) back

theorem recovers_number (x : Binary64) :
    Recovers (.number x) (write (.number x)) (Value.reshape (.number x)) := by
  intro _ ty raw _ _ written
  obtain ⟨rfl, notNaN, rfl⟩ := write_number_eq_ok.mp written
  cases whole : x.integral with
  | some n =>
      simp only [Option.elim_some, read, readScalar, numberOf?, Binary64.ofInt_of_integral whole,
        Value.reshape]
  | none =>
      simp only [Option.elim_none, read, readScalar, numberOf?, notNaN, Bool.false_eq_true,
        if_false, Binary64.unsignZero_of_integral_eq_none whole, Value.reshape]

theorem recovers_write (value : Value) : Recovers value (write value) value.reshape := by
  induction value with
  | null =>
      intro _ ty raw _ _ written
      cases written
      rfl
  | unknown known =>
      intro _ ty raw _ _ written
      cases written
      rfl
  | bool b =>
      intro _ ty raw _ _ written
      obtain ⟨rfl, rfl⟩ := write_bool_eq_ok.mp written
      rfl
  | number x => exact recovers_number x
  | string text =>
      intro _ ty raw _ _ written
      obtain ⟨rfl, rfl⟩ := write_string_eq_ok.mp written
      have valid : (MsgPack.ofText text).asText? = some text := ofUtf8?_utf8 text
      simp only [MsgPack.ofText] at valid ⊢
      simp only [read, readScalar, valid, Value.reshape]
  | list items ih | set items ih | tuple items ih =>
      exact recovers_items rfl fun item member => recovers_document (ih item member)
  | map entries ih | object entries ih =>
      exact recovers_entries rfl (fun ordered => (Value.ordered_iff.mp ordered).1)
        fun entry member => recovers_document (ih entry member)

theorem ranged_of_scalar {raw : MsgPack} (scalar : raw.children = []) (inRange : raw.InRange) :
    raw.Ranged :=
  MsgPack.ranged_iff.mpr ⟨inRange, by simp [scalar]⟩

theorem ranged_document {value : Value}
    (typed : ∀ ty raw, write value ty = .ok raw → raw.Ranged) :
    ∀ ty raw, document value ty = .ok raw → raw.Ranged := by
  intro ty raw written
  by_cases untyped : ty = .dynamic
  · subst untyped
    rcases document_dynamic written with ⟨rfl, rfl⟩ | ⟨rfl, rfl⟩ | ⟨-, inner, done, rfl⟩
    · exact ranged_of_scalar rfl trivial
    · exact ranged_of_scalar rfl ⟨by decide, by decide⟩
    · refine MsgPack.ranged_iff.mpr ⟨trivial, fun child member => ?_⟩
      rcases List.mem_pair.mp member with rfl | rfl
      · exact ranged_of_scalar rfl trivial
      · exact typed value.ty _ done
  · rw [document_of_typed value untyped] at written
    exact typed ty raw written

/-- What stands in a result of items was made of one of them. -/
theorem mem_of_zipWith {f : α → τ → Except ε β} {items : List α} {places : List τ}
    {raws : List β} (written : List.zipWith f items places = raws.map .ok) {raw : β}
    (member : raw ∈ raws) : ∃ item ∈ items, ∃ place ∈ places, f item place = .ok raw := by
  have made : Except.ok raw ∈ List.zipWith f items places := by
    rw [written]
    exact List.mem_map_of_mem member
  rw [← List.map_uncurry_zip_eq_zipWith] at made
  obtain ⟨⟨item, place⟩, inside, same⟩ := List.mem_map.mp made
  exact ⟨item, (List.of_mem_zip inside).1, place, (List.of_mem_zip inside).2, same⟩

/-- What stands in a result of fields was made of one of them. -/
theorem mem_of_fields {f : String × τ → Except ε β} {fields : List (String × τ)}
    {raws : List (String × β)} (written : (fields.map fun field => (field.1, f field)) =
      raws.map fun entry => (entry.1, .ok entry.2)) {entry : String × β} (member : entry ∈ raws) :
    ∃ field ∈ fields, field.1 = entry.1 ∧ f field = .ok entry.2 := by
  have made : (entry.1, Except.ok entry.2) ∈ fields.map fun field => (field.1, f field) := by
    rw [written]
    exact List.mem_map_of_mem member
  obtain ⟨field, here, same⟩ := List.mem_map.mp made
  obtain ⟨label, content⟩ := Prod.ext_iff.mp same
  exact ⟨field, here, label, content⟩

theorem ranged_items {kind : String} {items : List Value}
    (inside : ∀ item ∈ items, ∀ ty raw, document item ty = .ok raw → raw.Ranged) {ty : Ty}
    {raw : MsgPack} (written : writeItems .array kind (writers items) ty = .ok raw) :
    raw.Ranged := by
  rw [writers_eq] at written
  obtain ⟨types, -, raws, results, rfl⟩ := writeItems_eq_ok.mp written
  refine MsgPack.ranged_iff.mpr ⟨trivial, fun child member => ?_⟩
  obtain ⟨item, here, type, -, done⟩ := mem_of_zipWith results member
  exact inside item here type child done

theorem ranged_entries {kind : String} {entries : List (String × Value)}
    (sorted : Dict.Sorted entries)
    (inside : ∀ entry ∈ entries, ∀ ty raw, document entry.2 ty = .ok raw → raw.Ranged) {ty : Ty}
    {raw : MsgPack}
    (written : writeEntries .nil mapDocument kind (entryWriters entries) ty = .ok raw) :
    raw.Ranged := by
  rw [entryWriters_eq] at written
  obtain ⟨fields, -, raws, results, rfl⟩ := (writeEntries_eq_ok document_null sorted).mp written
  refine MsgPack.ranged_iff.mpr ⟨trivial, fun child member => ?_⟩
  obtain ⟨entry, inRaws, side⟩ := mem_children_mapDocument_iff.mp member
  rcases side with rfl | rfl
  · exact ranged_of_scalar rfl trivial
  · obtain ⟨field, -, -, made⟩ := mem_of_fields results inRaws
    let Within (value : Value) : Prop := ∀ ty raw, document value ty = .ok raw → raw.Ranged
    have all : Within (Value.entry entries field.1) := by
      refine Value.forall_entry Within ?_ inside field.1
      intro ty raw done
      rw [document_null] at done
      cases done
      exact ranged_of_scalar rfl trivial
    exact all field.2 entry.2 made

/-- Only words are written as integers. -/
theorem ranged_write {value : Value} (ordered : value.Ordered) :
    ∀ ty raw, write value ty = .ok raw → raw.Ranged := by
  induction value with
  | null =>
      intro ty raw written
      cases written
      exact ranged_of_scalar rfl trivial
  | unknown known =>
      intro ty raw written
      cases written
      exact ranged_of_scalar rfl ⟨by decide, by decide⟩
  | bool b =>
      intro ty raw written
      obtain ⟨-, rfl⟩ := write_bool_eq_ok.mp written
      exact ranged_of_scalar rfl trivial
  | string text =>
      intro ty raw written
      obtain ⟨-, rfl⟩ := write_string_eq_ok.mp written
      exact ranged_of_scalar rfl trivial
  | number x =>
      intro ty raw written
      obtain ⟨-, -, rfl⟩ := write_number_eq_ok.mp written
      cases whole : x.integral with
      | some n =>
          obtain ⟨-, least, greatest⟩ := Binary64.integral_eq_some whole
          unfold Binary64.wordLimit at least greatest
          exact ranged_of_scalar rfl ⟨by omega, by omega⟩
      | none => exact ranged_of_scalar rfl trivial
  | list items ih | set items ih | tuple items ih =>
      have inside := (Value.ordered_iff.mp ordered).2
      exact fun ty raw written => ranged_items
        (fun item member => ranged_document (ih item member (inside item member))) written
  | map entries ih | object entries ih =>
      obtain ⟨sorted, inside⟩ := Value.ordered_iff.mp ordered
      exact fun ty raw written => ranged_entries sorted
        (fun entry member => ranged_document
          (ih entry member (inside _ (List.mem_map_of_mem member)))) written

/-- The bytes of a document within the limits of the format and its reader are read as the
document. -/
theorem decode_write {value : Value} {ty : Ty} {raw : MsgPack} (ordered : value.Ordered)
    (made : document value ty = .ok raw) (sized : raw.Sized)
    (shallow : raw.nesting ≤ MsgPack.depthBudget) (under : Ty) :
    decode raw.write under = read raw under := by
  have ranged := ranged_document (ranged_write ordered) ty raw made
  have whole := MsgPack.reads_write sized ranged MsgPack.depthBudget []
  rw [List.append_nil, if_pos shallow] at whole
  rw [decode, whole]

/-- The bytes of a document within all limits are read as the value reshaped. -/
theorem decode_written {value : Value} {ty : Ty} {raw : MsgPack} (valueOrdered : value.Ordered)
    (typeOrdered : ty.Ordered) (made : document value ty = .ok raw) (sized : raw.Sized)
    (legible : raw.Legible) (shallow : raw.nesting ≤ MsgPack.depthBudget) :
    decode raw.write ty = .ok (value.reshaped ty) := by
  rw [decode_write valueOrdered made sized shallow]
  exact recovers_document (recovers_write value) valueOrdered ty raw typeOrdered legible made

/-- Bytes behind a document are counted, whatever the type is. -/
theorem decode_write_append {raw : MsgPack} (sized : raw.Sized) (ranged : raw.Ranged)
    (shallow : raw.nesting ≤ MsgPack.depthBudget) {more : List UInt8} (behind : more ≠ [])
    (ty : Ty) : decode (raw.write ++ more) ty = refuse (.trailing more.length) := by
  have whole := MsgPack.reads_write sized ranged MsgPack.depthBudget more
  rw [if_pos shallow] at whole
  obtain ⟨byte, rest, rfl⟩ := List.exists_cons_of_ne_nil behind
  rw [decode, whole]

/-- A value that was written under a type is read back under it, in the shape that the type names,
if the reader's two limits on nesting admit what was written. The length fields of the format hold
thirty-two bits, and the writer does not look whether a length fits them, so that `sized` asks it.
-/
theorem decode_encode_reshaped {value : Value} {ty : Ty} {bytes : List UInt8}
    (valueOrdered : value.Ordered) (typeOrdered : ty.Ordered)
    (written : encode value ty = .ok bytes)
    (sized : ∀ raw, document value ty = .ok raw → raw.Sized)
    (legible : ∀ raw, document value ty = .ok raw → raw.Legible)
    (shallow : MsgPack.read MsgPack.depthBudget bytes ≠ .error .depth) :
    decode bytes ty = .ok (value.reshaped ty) := by
  obtain ⟨raw, made, rfl⟩ := map_eq_ok.mp written
  have ranged := ranged_document (ranged_write valueOrdered) ty raw made
  have back := MsgPack.reads_write (sized raw made) ranged MsgPack.depthBudget []
  have admitted : raw.nesting ≤ MsgPack.depthBudget := by
    by_contra deep
    rw [List.append_nil, if_neg deep] at back
    exact shallow back
  exact decode_written valueOrdered typeOrdered made (sized raw made) (legible raw made) admitted

/-- A list is read back as a tuple of which the first part comes with its type. -/
theorem decode_encode_reshaped_pair :
    let value := Value.list [.string "x", .null]
    let ty := Ty.tuple [.dynamic, .bool]
    ∃ bytes, encode value ty = .ok bytes ∧
      decode bytes ty = .ok (.tuple [.string "x", .null]) := by
  intro value ty
  let raw := MsgPack.array [.array [.binary (utf8 "\"string\""), .string (utf8 "x")], .nil]
  have made : document value ty = .ok raw := by rfl
  have only (other : MsgPack) (also : document value ty = .ok other) : other = raw :=
    Except.ok.inj (also.symm.trans made)
  have parsed : Json.parse (utf8 "\"string\"") = .ok (.string "string") := by rfl
  have written : encode value ty = .ok raw.write := by
    rw [encode, made]
    rfl
  have parts : raw.parts = [raw, .array [.binary (utf8 "\"string\""), .string (utf8 "x")],
      .binary (utf8 "\"string\""), .string (utf8 "x"), .nil] := by rfl
  have sized : raw.Sized := by
    unfold MsgPack.Sized
    rw [parts]
    decide
  have ranged : raw.Ranged := by
    intro part member
    rw [parts] at member
    fin_cases member <;> trivial
  have legible : raw.Legible := by
    have elsewhere (other : MsgPack) (none : ∀ bytes, other ≠ .binary bytes) : other.IsLegible :=
      fun ty _ same => absurd same (none ty.toBytes)
    unfold MsgPack.Legible
    rw [parts]
    simp only [List.forall_mem_cons]
    exact ⟨elsewhere _ (by simp [raw]), elsewhere _ (by simp), MsgPack.isLegible_of_parse parsed,
      elsewhere _ (by simp), elsewhere _ (by simp), List.forall_mem_nil _⟩
  have back := MsgPack.reads_write sized ranged MsgPack.depthBudget []
  rw [List.append_nil, if_pos (by decide)] at back
  refine ⟨raw.write, written, ?_⟩
  refine decode_encode_reshaped ?_ ?_ written ?_ ?_ ?_
  · intro part member
    fin_cases member <;> trivial
  · intro part member
    fin_cases member <;> trivial
  · exact fun other also => only other also ▸ sized
  · exact fun other also => only other also ▸ legible
  · rw [back]
    simp

/-- Not every value is read back: a text as long as the limit is announced as the empty text, and
its bytes stand behind the document that is read. -/
theorem not_decode_encode_oversized :
    ¬ ∀ (value : Value) (ty : Ty) (bytes : List UInt8), value.Ordered → ty.Ordered →
      encode value ty = .ok bytes →
        (∀ raw, document value ty = .ok raw → raw.Legible) →
          MsgPack.read MsgPack.depthBudget bytes ≠ .error .depth →
            decode bytes ty = .ok (value.reshaped ty) := by
  intro all
  obtain ⟨text, long⟩ := exists_text_of_length MsgPack.lengthLimit
  have sized : (MsgPack.string []).Sized :=
    MsgPack.sized_iff.mpr ⟨show 0 < MsgPack.lengthLimit by decide, List.forall_mem_nil _⟩
  have ranged : (MsgPack.string []).Ranged :=
    MsgPack.ranged_iff.mpr ⟨trivial, List.forall_mem_nil _⟩
  have valueOrdered : (Value.string text).Ordered :=
    Value.ordered_iff.mpr ⟨trivial, List.forall_mem_nil _⟩
  have typeOrdered : Ty.string.Ordered := Ty.ordered_iff.mpr ⟨trivial, List.forall_mem_nil _⟩
  have written : encode (.string text) .string = .ok ((MsgPack.string []).write ++ utf8 text) := by
    rw [← MsgPack.write_string_of_length long]
    rfl
  have legible : ∀ raw, document (.string text) .string = .ok raw → raw.Legible := by
    rintro raw made
    cases made
    exact MsgPack.legible_of_scalar rfl (by simp [MsgPack.ofText])
  have admitted : MsgPack.read MsgPack.depthBudget ((MsgPack.string []).write ++ utf8 text) ≠
      .error .depth := by
    rw [MsgPack.reads_write sized ranged, if_pos (by decide)]
    nofun
  have back := all _ _ _ valueOrdered typeOrdered written legible admitted
  rw [decode_write_append sized ranged (by decide)
    (MsgPack.ne_nil_of_length_limit long)] at back
  cases back

end Wire.Binary

end ScriptHost
