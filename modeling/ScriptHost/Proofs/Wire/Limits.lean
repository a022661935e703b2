import ScriptHost.Proofs.MsgPack.Extent
import ScriptHost.Proofs.Wire.RoundTrip
import ScriptHost.Wire

set_option autoImplicit false

namespace ScriptHost

namespace Ty

/-- The type that an entry with some name has in a collection of the type. -/
def entryType? (name : String) : Ty → Option Ty
  | map element => some element
  | object attributes => Dict.get? attributes name
  | _ => none

theorem entryType?_of_entryTypes? {names : List String} {ty : Ty} {fields : List (String × Ty)}
    (ordered : ty.Ordered) (places : ty.entryTypes? names = some fields) :
    ∀ field ∈ fields, ty.entryType? field.1 = some field.2 := by
  intro field member
  obtain ⟨element, rfl, rfl⟩ | ⟨rfl, -⟩ := entryTypes?_eq_some.mp places
  · obtain ⟨name, -, rfl⟩ := List.mem_map.mp member
    rfl
  · exact (Dict.get?_eq_some_iff (ordered_iff.mp ordered).1.nodup).mpr member

end Ty

namespace Wire.Binary

variable {α β γ τ ε δ : Type}

/-- What was written at a place is read at that place. -/
theorem exists_place {write : α → τ → Except ε β} {read : β → τ → Except δ γ} {items : List α}
    {places : List τ} {raws : List β} {values : List γ}
    (written : List.zipWith write items places = raws.map .ok)
    (back : List.zipWith read raws places = values.map .ok) {raw : β} (member : raw ∈ raws) :
    ∃ item ∈ items, ∃ place ∈ places, write item place = .ok raw ∧
      ∃ value, read raw place = .ok value := by
  induction raws generalizing items places values with
  | nil => cases member
  | cons first raws ih =>
      cases items with
      | nil => simp at written
      | cons item items =>
          cases places with
          | nil => simp at written
          | cons place places =>
              cases values with
              | nil => simp at back
              | cons value values =>
                  simp only [List.zipWith_cons_cons, List.map_cons, List.cons.injEq] at written back
                  rcases List.mem_cons.mp member with rfl | later
                  · exact ⟨item, by simp, place, by simp, written.1, value, back.1⟩
                  · obtain ⟨item, inItems, place, inPlaces, both⟩ := ih written.2 back.2 later
                    exact ⟨item, by simp [inItems], place, by simp [inPlaces], both⟩

theorem exists_values_of_readArray {raws : List MsgPack} {ty : Ty} {types : List Ty} {back : Value}
    (places : ty.itemTypes? raws.length = some types)
    (done : readArray ty (raws.map read) = .ok back) :
    ∃ values : List Value, List.zipWith read raws types = values.map .ok := by
  rw [readArray_eq_collect places, map_eq_ok] at done
  obtain ⟨values, all, -⟩ := done
  exact ⟨values, collect_eq_ok.mp all⟩

/-- The entry that a pair stands for, if its name has a type under which its value is read. -/
def entryOf? (typeOf : String → Option Ty) (pair : MsgPack × (Ty → Decoded Value)) :
    Option (String × Value) :=
  pair.1.asText?.bind fun name => (typeOf name).bind fun type =>
    (pair.2 type).toOption.map fun value => (name, value)

theorem entryOf?_eq_some {typeOf : String → Option Ty} {pair : MsgPack × (Ty → Decoded Value)}
    {entry : String × Value} : entryOf? typeOf pair = some entry ↔
      pair.1.asText? = some entry.1 ∧ ∃ type, typeOf entry.1 = some type ∧
        pair.2 type = .ok entry.2 := by
  obtain ⟨key, reader⟩ := pair
  obtain ⟨name, value⟩ := entry
  have result (type : Ty) (other : Value) :
      (reader type).toOption = some other ↔ reader type = .ok other := by
    cases reader type <;> simp [Except.toOption]
  simp only [entryOf?, Option.bind_eq_some_iff, Option.map_eq_some_iff, result, Prod.mk.injEq]
  constructor
  · rintro ⟨_, text, type, typed, _, done, rfl, rfl⟩
    exact ⟨text, type, typed, done⟩
  · rintro ⟨text, type, typed, done⟩
    exact ⟨name, text, type, typed, value, done, rfl, rfl⟩

/-- Entries are read exactly if every pair stands for one, and they come in by insertion. -/
theorem readEntries_eq_ok {ty : Ty} {typeOf : String → Option Ty}
    {pairs : List (MsgPack × (Ty → Decoded Value))} {before entries : List (String × Value)} :
    readEntries ty typeOf before pairs = .ok entries ↔
      (∀ pair ∈ pairs, (entryOf? typeOf pair).isSome) ∧
        (pairs.filterMap (entryOf? typeOf)).foldl (fun d entry => Dict.insert entry.1 entry.2 d)
          before = entries := by
  induction pairs generalizing before with
  | nil => simp [readEntries]
  | cons pair rest ih =>
      obtain ⟨key, reader⟩ := pair
      rw [readEntries, List.forall_mem_cons]
      cases text : key.asText? with
      | none => simp [entryOf?, text, refuse]
      | some name =>
          cases typed : typeOf name with
          | none => simp [entryOf?, text, typed, refuse]
          | some type =>
              cases outcome : reader type with
              | error failure => simp [entryOf?, text, typed, outcome, under, Except.toOption]
              | ok value =>
                  have found : entryOf? typeOf (key, reader) = some (name, value) :=
                    entryOf?_eq_some.mpr ⟨text, type, typed, outcome⟩
                  simp only [typed, outcome, under, ih, found, List.filterMap_cons,
                    List.foldl_cons, Option.isSome_some, true_and]

theorem exists_value_of_readEntries {ty : Ty} {typeOf : String → Option Ty}
    {pairs : List (MsgPack × (Ty → Decoded Value))} {before entries : List (String × Value)}
    (done : readEntries ty typeOf before pairs = .ok entries) :
    ∀ pair ∈ pairs, ∃ name type value, pair.1.asText? = some name ∧ typeOf name = some type ∧
      pair.2 type = .ok value := by
  intro pair member
  obtain ⟨entry, found⟩ := Option.isSome_iff_exists.mp ((readEntries_eq_ok.mp done).1 pair member)
  obtain ⟨text, type, typed, read⟩ := entryOf?_eq_some.mp found
  exact ⟨entry.1, type, entry.2, text, typed, read⟩

/-- In a collection every entry was read under the type that the collection gives it. -/
theorem exists_value_of_readMap {ty : Ty} {pairs : List (MsgPack × (Ty → Decoded Value))}
    {back : Value} (done : readMap ty pairs = .ok back) :
    ∀ pair ∈ pairs, ∃ name type value, pair.1.asText? = some name ∧
      ty.entryType? name = some type ∧ pair.2 type = .ok value := by
  cases ty with
  | map element =>
      rw [readMap, map_eq_ok] at done
      obtain ⟨entries, all, -⟩ := done
      exact exists_value_of_readEntries all
  | object attributes =>
      rw [readMap] at done
      cases all : readEntries (.object attributes) (Dict.get? attributes) [] pairs with
      | error failure => simp [all] at done
      | ok entries => exact exists_value_of_readEntries all
  | _ => simp [readMap, refuse] at done

/-- Where what was written of a value can be read, the notations in it are legible. -/
def Shown (value : Value) (writer : Ty → Encoded MsgPack) : Prop :=
  value.Ordered → ∀ ty raw, ty.Ordered → writer ty = .ok raw → ∀ back, read raw ty = .ok back →
    raw.Legible

theorem isLegible_of_declaredType {bytes : List UInt8} {ty : Ty}
    (declared : declaredType (.binary bytes) = .ok ty) : (MsgPack.binary bytes).IsLegible := by
  cases parsed : Json.parse bytes with
  | ok document => exact MsgPack.isLegible_of_parse parsed
  | error error => simp [declaredType, Ty.ofBytes, parsed, refuse] at declared

theorem shown_document {value : Value} (typed : Shown value (write value)) :
    Shown value (document value) := by
  intro valueOrdered ty raw typeOrdered written back done
  by_cases untyped : ty = .dynamic
  · subst untyped
    rcases document_dynamic written with ⟨rfl, rfl⟩ | ⟨rfl, rfl⟩ | ⟨known, inner, made, rfl⟩
    · exact MsgPack.legible_of_scalar rfl (by simp)
    · exact MsgPack.legible_of_scalar rfl (by simp [unknownDocument])
    · have ordered := Value.ordered_ty valueOrdered
      rw [read] at done
      cases declared : declaredType (.binary value.ty.toBytes) with
      | error failure => simp [declared] at done
      | ok other =>
          have noted := isLegible_of_declaredType declared
          rw [declaredType_toBytes known ordered (noted value.ty ordered rfl)] at declared
          cases declared
          simp only [declaredType_toBytes known ordered (noted value.ty ordered rfl)] at done
          have innerLegible := typed valueOrdered value.ty inner ordered made back done
          exact MsgPack.legible_pair noted innerLegible
  · rw [document_of_typed value untyped] at written
    exact typed valueOrdered ty raw typeOrdered written back done

theorem shown_items {value : Value} {kind : String} {items : List Value}
    (children : value.children = items)
    (inside : ∀ item ∈ items, Shown item (document item)) :
    Shown value (writeItems .array kind (writers items)) := by
  intro valueOrdered ty raw typeOrdered written back done
  have itemsOrdered := (Value.ordered_iff.mp valueOrdered).2
  rw [children] at itemsOrdered
  rw [writers_eq] at written
  obtain ⟨types, places, raws, results, rfl⟩ := writeItems_eq_ok.mp written
  have typesOrdered := Ty.ordered_of_itemTypes? typeOrdered places
  have sameLength : raws.length = items.length :=
    length_of_zipWith results (Ty.length_of_itemTypes? places)
  rw [read_array (Ty.ne_dynamic_of_itemTypes? places)] at done
  obtain ⟨values, all⟩ := exists_values_of_readArray (sameLength ▸ places) done
  apply MsgPack.legible_array
  intro raw member
  obtain ⟨item, inItems, type, inTypes, made, value, result⟩ := exists_place results all member
  exact inside item inItems (itemsOrdered item inItems) type raw (typesOrdered type inTypes) made
    value result

theorem shown_entries {value : Value} {kind : String} {entries : List (String × Value)}
    (children : value.children = entries.map Prod.snd) (names : value.Ordered → Dict.Sorted entries)
    (inside : ∀ entry ∈ entries, Shown entry.2 (document entry.2)) :
    Shown value (writeEntries .nil mapDocument kind (entryWriters entries)) := by
  intro valueOrdered ty raw typeOrdered written back done
  have entriesOrdered := (Value.ordered_iff.mp valueOrdered).2
  rw [children] at entriesOrdered
  rw [entryWriters_eq] at written
  obtain ⟨fields, places, raws, results, rfl⟩ :=
    (writeEntries_eq_ok document_null (names valueOrdered)).mp written
  have typesOrdered := Ty.ordered_of_entryTypes? typeOrdered places
  let Shows (value : Value) : Prop := ∀ type raw, type.Ordered → document value type = .ok raw →
    ∀ back, read raw type = .ok back → raw.Legible
  have entryShows (name : String) : Shows (Value.entry entries name) := by
    refine Value.forall_entry Shows ?_ (fun entry member => ?_) name
    · intro type raw _ made _ _
      rw [document_null] at made
      cases made
      exact MsgPack.legible_of_scalar rfl (by simp)
    · exact inside entry member (entriesOrdered _ (List.mem_map_of_mem member))
  rw [read_mapDocument] at done
  apply legible_mapDocument
  intro entry inRaws
  obtain ⟨name, type, value, text, typed, result⟩ :=
    exists_value_of_readMap done _ (List.mem_map_of_mem inRaws)
  obtain ⟨field, inFields, label, content⟩ := mem_of_fields results inRaws
  have named : (MsgPack.ofText entry.1).asText? = some entry.1 := ofUtf8?_utf8 entry.1
  rw [named, Option.some.injEq] at text
  have declared := Ty.entryType?_of_entryTypes? typeOrdered places field inFields
  rw [label, text, typed, Option.some.injEq] at declared
  subst declared
  exact entryShows field.1 field.2 entry.2 (typesOrdered field inFields) content value result

theorem shown_write (value : Value) : Shown value (write value) := by
  induction value with
  | null =>
      intro _ ty raw _ written _ _
      cases written
      exact MsgPack.legible_of_scalar rfl (by simp)
  | unknown known =>
      intro _ ty raw _ written _ _
      cases written
      exact MsgPack.legible_of_scalar rfl (by simp [unknownDocument])
  | bool b =>
      intro _ ty raw _ written _ _
      obtain ⟨-, rfl⟩ := write_bool_eq_ok.mp written
      exact MsgPack.legible_of_scalar rfl (by simp)
  | number x =>
      intro _ ty raw _ written _ _
      obtain ⟨-, -, rfl⟩ := write_number_eq_ok.mp written
      cases x.integral with
      | some n => exact MsgPack.legible_of_scalar rfl (by simp)
      | none => exact MsgPack.legible_of_scalar rfl (by simp)
  | string text =>
      intro _ ty raw _ written _ _
      obtain ⟨-, rfl⟩ := write_string_eq_ok.mp written
      exact MsgPack.legible_of_scalar rfl (by simp [MsgPack.ofText])
  | list items ih | set items ih | tuple items ih =>
      exact shown_items rfl fun item member => shown_document (ih item member)
  | map entries ih | object entries ih =>
      exact shown_entries rfl (fun ordered => (Value.ordered_iff.mp ordered).1)
        fun entry member => shown_document (ih entry member)

/-- What was written of a value can be read exactly if it is within both limits on nesting. -/
theorem exists_decode_iff {value : Value} {ty : Ty} {raw : MsgPack} (valueOrdered : value.Ordered)
    (typeOrdered : ty.Ordered) (made : document value ty = .ok raw) (sized : raw.Sized) :
    (∃ back, decode raw.write ty = .ok back) ↔
      raw.Legible ∧ raw.nesting ≤ MsgPack.depthBudget := by
  constructor
  · rintro ⟨back, done⟩
    have ranged := ranged_document (ranged_write valueOrdered) ty raw made
    have whole := MsgPack.reads_write sized ranged MsgPack.depthBudget []
    rw [List.append_nil] at whole
    rw [decode, whole] at done
    by_cases shallow : raw.nesting ≤ MsgPack.depthBudget
    · rw [if_pos shallow] at done
      exact ⟨shown_document (shown_write value) valueOrdered ty raw typeOrdered made back done,
        shallow⟩
    · rw [if_neg shallow] at done
      cases done
  · rintro ⟨legible, shallow⟩
    exact ⟨_, decode_written valueOrdered typeOrdered made sized legible shallow⟩

end Wire.Binary

namespace Wire

/-- Values are written as payloads with a binary form. -/
theorem encode_eq_ok {value : Value} {ty : Ty} {payload : Payload} :
    encode value ty = .ok payload ↔
      ∃ raw, Binary.document value ty = .ok raw ∧ payload = .ofBinary raw.write := by
  unfold encode encodeBinary Binary.encode
  cases Binary.document value ty with
  | error failure => simp [Except.mapError, Except.map]
  | ok raw => simp [Except.mapError, Except.map, eq_comm]

theorem ofBinary_write_ne_nil (raw : MsgPack) : (Payload.ofBinary raw.write).binary ≠ [] :=
  List.ne_nil_of_length_pos raw.length_write_pos

/-- Of a payload with a binary form the binary form is read. -/
theorem decode_ofBinary {raw : MsgPack} {ty : Ty} {value : Value} :
    decode (.ofBinary raw.write) ty = .ok value ↔ Binary.decode raw.write ty = .ok value := by
  rw [decode_binary (ofBinary_write_ne_nil raw), decodeBinary, Payload.ofBinary]
  cases Binary.decode raw.write ty with
  | error failure => simp [Except.mapError]
  | ok result => simp [Except.mapError]

/-- Of a payload with bytes behind its document nothing is read. -/
theorem decode_ofBinary_append {raw : MsgPack} {more : List UInt8} (sized : raw.Sized)
    (ranged : raw.Ranged) (shallow : raw.nesting ≤ MsgPack.depthBudget) (behind : more ≠ [])
    (ty : Ty) (value : Value) : decode (.ofBinary (raw.write ++ more)) ty ≠ .ok value := by
  have there : (Payload.ofBinary (raw.write ++ more)).binary ≠ [] :=
    List.append_ne_nil_of_right_ne_nil _ behind
  rw [decode_binary there, decodeBinary, Payload.ofBinary,
    Binary.decode_write_append sized ranged shallow behind]
  nofun

/-- A text as long as the limit has a payload, of which nothing is read. -/
theorem exists_encode_oversized {text : String} (long : (utf8 text).length = MsgPack.lengthLimit) :
    ∃ payload, encode (.string text) .dynamic = .ok payload ∧
      ∀ ty value, decode payload ty ≠ .ok value := by
  let type := MsgPack.binary Ty.string.toBytes
  let raw := MsgPack.array [type, .string []]
  have made : Binary.document (.string text) .dynamic = .ok (.array [type, .ofText text]) := by
    rfl
  have announced : (MsgPack.ofText text).write = (MsgPack.string []).write ++ utf8 text :=
    MsgPack.write_string_of_length long
  have bytes : (MsgPack.array [type, .ofText text]).write = raw.write ++ utf8 text := by
    simp [raw, MsgPack.write, MsgPack.writeItems, announced]
  have parts : raw.parts = [raw, type, .string []] := rfl
  have sized : raw.Sized := MsgPack.sized_of_length (by decide)
  have ranged : raw.Ranged := by
    intro part member
    rw [parts] at member
    fin_cases member <;> trivial
  refine ⟨.ofBinary (raw.write ++ utf8 text), encode_eq_ok.mpr ⟨_, made, by rw [bytes]⟩, ?_⟩
  exact decode_ofBinary_append sized ranged (by decide) (MsgPack.ne_nil_of_length_limit long)

/-- A payload that was written can be read exactly if the notations of types in its document nest no
deeper than the reader of notations goes, and the document no deeper than its own reader goes. The
length fields of the format must hold the lengths in it. -/
theorem decode_encode_iff {value : Value} {ty : Ty} {payload : Payload}
    (valueOrdered : value.Ordered) (typeOrdered : ty.Ordered)
    (written : encode value ty = .ok payload)
    (sized : ∀ raw, Binary.document value ty = .ok raw → raw.Sized) :
    ∃ raw, Binary.document value ty = .ok raw ∧
      ((∃ back, decode payload ty = .ok back) ↔
        raw.Legible ∧ raw.nesting ≤ MsgPack.depthBudget) := by
  obtain ⟨raw, made, rfl⟩ := encode_eq_ok.mp written
  refine ⟨raw, made, ?_⟩
  rw [← Binary.exists_decode_iff valueOrdered typeOrdered made (sized raw made)]
  simp only [decode_ofBinary]

/-- A list is within the limits. -/
theorem decode_encode_iff_list :
    let value := Value.list [.bool true]
    ∃ payload, encode value .dynamic = .ok payload ∧
      ∃ back, decode payload .dynamic = .ok back := by
  intro value
  let raw := MsgPack.array [.binary value.ty.toBytes, .array [.bool true]]
  have made : Binary.document value .dynamic = .ok raw := by rfl
  have only (other : MsgPack) (also : Binary.document value .dynamic = .ok other) : other = raw :=
    Except.ok.inj (also.symm.trans made)
  have written : encode value .dynamic = .ok (.ofBinary raw.write) :=
    encode_eq_ok.mpr ⟨raw, made, rfl⟩
  have ordered : value.Ordered := by
    simp [value, Value.Ordered, Value.parts, Value.partsOfItems, Value.NamesAscend]
  have sized : raw.Sized := MsgPack.sized_of_length (by decide)
  obtain ⟨other, also, readable⟩ := decode_encode_iff ordered Value.ordered_dynamic written
    fun other also => only other also ▸ sized
  refine ⟨_, written, readable.mpr ?_⟩
  rw [only other also]
  refine ⟨?_, by decide⟩
  have noted : (MsgPack.binary value.ty.toBytes).Legible :=
    MsgPack.legible_iff.mpr ⟨MsgPack.isLegible_toBytes (Value.ordered_ty ordered) (by decide),
      by simp [MsgPack.children]⟩
  have inner : (MsgPack.array [.bool true]).Legible := by
    refine MsgPack.legible_iff.mpr ⟨MsgPack.isLegible_of_textual (by simp), ?_⟩
    simpa [MsgPack.children] using @MsgPack.legible_of_scalar (.bool true) rfl (by simp)
  refine MsgPack.legible_iff.mpr ⟨MsgPack.isLegible_of_textual (by simp [raw]), ?_⟩
  simpa [raw, MsgPack.children] using ⟨noted, inner⟩

/-- Objects inside objects. -/
def nest : Nat → Value
  | 0 => .object []
  | levels + 1 => .object [("a", nest levels)]

def nestDocument : Nat → MsgPack
  | 0 => .map []
  | levels + 1 => .map [(.ofText "a", nestDocument levels)]

theorem ty_nest (levels : Nat) : (nest (levels + 1)).ty = .object [("a", (nest levels).ty)] :=
  Value.ty_object _

theorem typed_nest (levels : Nat) : (nest levels).ty ≠ .dynamic := by
  cases levels with
  | zero => simp [nest, Value.ty_object]
  | succ levels => simp [ty_nest]

theorem ordered_nest (levels : Nat) : (nest levels).Ordered := by
  induction levels with
  | zero => exact Value.ordered_iff.mpr ⟨List.Pairwise.nil, by simp [nest, Value.children]⟩
  | succ levels ih =>
      refine Value.ordered_iff.mpr ⟨by simp [nest, Value.NamesAscend, Dict.Sorted], ?_⟩
      simpa [nest, Value.children] using ih

theorem write_nest (levels : Nat) :
    Binary.write (nest levels) (nest levels).ty = .ok (nestDocument levels) := by
  induction levels with
  | zero => rfl
  | succ levels ih =>
      rw [← Binary.document_of_typed _ (typed_nest levels)] at ih
      have sorted : Dict.Sorted [("a", nest levels)] := by simp [Dict.Sorted]
      have entries : (nest (levels + 1)).entries? = some [("a", nest levels)] := rfl
      rw [Binary.write_of_entries? _ entries, writeEntries_eq_ok Binary.document_null sorted]
      refine ⟨[("a", (nest levels).ty)], by simp [ty_nest, Ty.entryTypes?],
        [("a", nestDocument levels)], ?_, rfl⟩
      simp [Value.entry, Dict.get?_cons, ih]

theorem sized_nest (levels : Nat) : (nestDocument levels).Sized := by
  induction levels with
  | zero => exact MsgPack.sized_iff.mpr ⟨by decide, by simp [nestDocument, MsgPack.children]⟩
  | succ levels ih =>
      have name : (MsgPack.ofText "a").Sized :=
        MsgPack.sized_iff.mpr ⟨by decide, by simp [MsgPack.ofText, MsgPack.children]⟩
      refine MsgPack.sized_iff.mpr ⟨show 1 < MsgPack.lengthLimit by decide, ?_⟩
      simpa [nestDocument, MsgPack.children] using ⟨name, ih⟩

theorem length_nest (levels : Nat) : (nest levels).ty.toBytes.length = 17 * levels + 13 := by
  induction levels with
  | zero => decide
  | succ levels ih =>
      have kind : (Json.quoted "object").length = 8 := by decide
      have name : (Json.quoted "a").length = 3 := by decide
      rw [Ty.toBytes] at ih ⊢
      rw [ty_nest, Ty.toJson, Ty.attributesToJson_eq]
      simp [Json.render, Json.renderItems, Json.renderFields, Json.scalarText, kind, name, ih]
      omega

theorem depth_nest (levels : Nat) : (nest levels).ty.toJson.depth = 2 * (levels + 1) := by
  induction levels with
  | zero => rfl
  | succ levels ih =>
      rw [ty_nest, Ty.toJson, Ty.attributesToJson_eq]
      simp only [List.map_cons, List.map_nil, Json.depth, Json.depthOfItems, Json.depthOfFields, ih]
      omega

/-- Objects inside objects are written with any nesting, and of 64 levels the type is not read. -/
theorem decode_encode_refuses_nested :
    ¬ ∀ (value : Value) (ty : Ty) (payload : Payload), value.Ordered → ty.Ordered →
      encode value ty = .ok payload → ∃ back, decode payload ty = .ok back := by
  intro claim
  let raw := MsgPack.array [.binary (nest 63).ty.toBytes, nestDocument 63]
  have made : Binary.document (nest 63) .dynamic = .ok raw := by
    rw [Binary.document_dynamic_of_typed (typed_nest 63), write_nest]
    rfl
  have sized : raw.Sized := by
    have noted : (MsgPack.binary (nest 63).ty.toBytes).Sized :=
      MsgPack.sized_iff.mpr ⟨by rw [MsgPack.size, length_nest]; decide, by simp [MsgPack.children]⟩
    refine MsgPack.sized_iff.mpr ⟨by decide, ?_⟩
    simpa [raw, MsgPack.children] using ⟨noted, sized_nest 63⟩
  obtain ⟨back, done⟩ := claim (nest 63) .dynamic _ (ordered_nest 63) Value.ordered_dynamic
    (encode_eq_ok.mpr ⟨raw, made, rfl⟩)
  obtain ⟨legible, -⟩ := (Binary.exists_decode_iff (ordered_nest 63) Value.ordered_dynamic made
    sized).mp ⟨back, decode_ofBinary.mp done⟩
  have type : MsgPack.binary (nest 63).ty.toBytes ∈ raw.children := by simp [raw, MsgPack.children]
  have shallow := (MsgPack.legible_iff.mp ((MsgPack.legible_iff.mp legible).2 _ type)).1 _
    (Value.ordered_ty (ordered_nest 63)) rfl
  rw [depth_nest] at shallow
  exact absurd shallow (by decide)

end Wire

end ScriptHost
