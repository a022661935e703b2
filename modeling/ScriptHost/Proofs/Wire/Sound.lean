import ScriptHost.Proofs.Wire.TextPlaces
import ScriptHost.Proofs.Wire.Typed

set_option autoImplicit false

namespace ScriptHost

namespace Wire

namespace Text

theorem sound_readScalar {raw : Json} (canonical : Json.Canonical raw) :
    Sound .text (readScalar raw) := by
  intro ty value _ done
  unfold readScalar at done
  split at done
  · cases done
  · cases done
    exact ⟨.bool _, ordered_of_scalar trivial rfl⟩
  · cases done
    exact ⟨.number (Binary64.isNaN_ofInt _), ordered_of_scalar trivial rfl⟩
  · cases done
    cases canonical with
    | float finite =>
        exact ⟨.number (Binary64.isNaN_of_isFinite finite), ordered_of_scalar trivial rfl⟩
  · split at done
    · rename_i x spelled
      cases done
      exact ⟨.number (Binary64.isNaN_of_ofPaddedText? spelled), ordered_of_scalar trivial rfl⟩
    · cases done
  · cases done
    exact ⟨.string _, ordered_of_scalar trivial rfl⟩
  · cases done

theorem ordered_of_declaredType {noted : Json} {ty : Ty} (canonical : Json.Canonical noted)
    (declared : declaredType noted = .ok ty) : ty.Ordered ∧ ty ≠ .dynamic := by
  unfold declaredType at declared
  split at declared
  · cases declared
  · cases declared
  · rename_i other untyped named
    cases declared
    exact ⟨(Ty.notesOrdered_of_canonical canonical).type _ named, untyped⟩

/-- Under a dynamic type an object names the type of its value. -/
theorem sound_dynamic {fields : List (String × Json)}
    (canonical : ∀ field ∈ fields, Json.Canonical field.2)
    (inside : ∀ field ∈ fields, Sound .text (read field.2)) {value : Value}
    (done : read (.object fields) .dynamic = .ok value) :
    HasType .text value .dynamic ∧ value.Ordered := by
  rw [read, fieldReaders_eq, Dict.get?_map] at done
  cases type : Dict.get? fields "type" with
  | none => simp [type, readDynamic, refuse] at done
  | some noted =>
      cases content : Dict.get? fields "value" with
      | none => simp [type, content, readDynamic, refuse] at done
      | some inner =>
          cases declared : declaredType noted with
          | error failure => simp [type, content, readDynamic, declared] at done
          | ok ty =>
              simp only [type, content, Option.map_some, readDynamic, declared] at done
              obtain ⟨ordered, typed⟩ :=
                ordered_of_declaredType (canonical _ (Dict.mem_of_get? type)) declared
              obtain ⟨hasType, valueOrdered⟩ :=
                inside _ (Dict.mem_of_get? content) ty value ordered done
              exact ⟨.dynamic typed hasType, valueOrdered⟩

theorem sound_object {fields : List (String × Json)} (sorted : Dict.Sorted fields)
    (inside : ∀ field ∈ fields, Sound .text (read field.2)) {ty : Ty} {value : Value}
    (ordered : ty.Ordered) (done : readObject ty (fieldReaders fields) = .ok value) :
    HasType .text value ty ∧ value.Ordered := by
  obtain ⟨places, given, names, values, all, rfl⟩ := (readObject_eq_ok ordered sorted).mp done
  have typed := Ty.entryType?_of_entryTypes? ordered given
  have typesOrdered := Ty.ordered_of_entryTypes? ordered given
  obtain ⟨sameNames, origins⟩ := of_results names all
  have valuesSorted : Dict.Sorted values := by
    rw [Dict.Sorted, sameNames, ← names]
    exact sorted
  have valuesGiven : ty.entryTypes? (Dict.keys values) = some places := by
    rw [sameNames, ← names]
    exact given
  apply sound_entries valuesSorted valuesGiven sameNames
  intro entry member
  obtain ⟨field, here, place, there, label, found⟩ := origins entry member
  have declared : ty.entryType? entry.1 = some place.2 := label ▸ typed place there
  exact ⟨place.2, declared, inside field here place.2 entry.2 (typesOrdered place there) found⟩

/-- What is read from a document under a type is a value of the type. -/
theorem sound_read {document : Json} (canonical : Json.Canonical document) :
    Sound .text (read document) := by
  induction canonical with
  | null =>
      intro ty value _ done
      cases done
      exact ⟨.null ty, ordered_of_scalar trivial rfl⟩
  | array _ ih =>
      intro ty value ordered done
      by_cases untyped : ty = .dynamic
      · subst untyped
        cases done
      · rw [read_array untyped] at done
        obtain ⟨types, places, values, all, rfl⟩ := readArray_eq_ok.mp done
        exact sound_items ih ordered places all
  | object sorted each ih =>
      intro ty value ordered done
      by_cases untyped : ty = .dynamic
      · subst untyped
        exact sound_dynamic each ih done
      · rw [read_object untyped] at done
        exact sound_object sorted ih ordered done
  | bool b => exact sound_readScalar (.bool b)
  | integer least greatest => exact sound_readScalar (.integer least greatest)
  | float finite => exact sound_readScalar (.float finite)
  | string text => exact sound_readScalar (.string text)

theorem hasType_decode {bytes : List UInt8} {ty : Ty} {value : Value} (ordered : ty.Ordered)
    (done : decode bytes ty = .ok value) : HasType .text value ty := by
  rw [decode] at done
  split at done
  · cases done
  · rename_i document parsed
    exact (sound_read (Json.canonical_of_parse parsed) ty value ordered done).1

end Text

namespace Binary

theorem exists_of_decode {bytes : List UInt8} {ty : Ty} {value : Value}
    (done : decode bytes ty = .ok value) :
    ∃ raw, MsgPack.Within MsgPack.depthBudget raw ∧ read raw ty = .ok value := by
  rw [decode] at done
  split at done
  · cases done
  · rename_i raw found
    exact ⟨raw, MsgPack.within_read found, done⟩
  · cases done

theorem eq_ofText_of_asText? {raw : MsgPack} {text : String} (named : raw.asText? = some text) :
    raw = .ofText text := by
  cases raw with
  | string bytes => rw [MsgPack.ofText, utf8_of_ofUtf8? named]
  | _ => cases named

/-- A document takes no more room than another, and nothing in it is binary. -/
structure Shrinks (raw back : MsgPack) : Prop where
  nesting : back.nesting ≤ raw.nesting
  sized : raw.Sized → back.Sized
  textual : ∀ part ∈ back.parts, ∀ bytes, part ≠ .binary bytes

theorem shrinks_of_scalar {raw back : MsgPack} (nesting : back.nesting ≤ raw.nesting)
    (size : back.size ≤ raw.size) (scalar : back.children = [])
    (textual : ∀ bytes, back ≠ .binary bytes) : Shrinks raw back where
  nesting := nesting
  sized sized := by
    have fits := (MsgPack.sized_iff.mp sized).1
    exact MsgPack.sized_iff.mpr ⟨by omega, by simp [scalar]⟩
  textual := MsgPack.forall_mem_parts.mpr ⟨textual, by simp [scalar]⟩

theorem shrinks_array {raws backs : List MsgPack} (length : backs.length ≤ raws.length)
    (each : ∀ back ∈ backs, ∃ raw ∈ raws, Shrinks raw back) :
    Shrinks (.array raws) (.array backs) where
  nesting := by
    have deepest : MsgPack.nestingOfItems backs ≤ MsgPack.nestingOfItems raws := by
      apply MsgPack.nestingOfItems_le_iff.mpr
      intro back member
      obtain ⟨raw, here, shrinks⟩ := each back member
      exact Nat.le_trans shrinks.nesting
        (MsgPack.nestingOfItems_le_iff.mp (Nat.le_refl _) raw here)
    rw [MsgPack.nesting, MsgPack.nesting]
    omega
  sized sized := by
    obtain ⟨fits, inside⟩ := MsgPack.sized_iff.mp sized
    refine MsgPack.sized_iff.mpr ⟨Nat.lt_of_le_of_lt length fits, fun back member => ?_⟩
    obtain ⟨raw, here, shrinks⟩ := each back member
    exact shrinks.sized (inside raw here)
  textual := by
    refine MsgPack.forall_mem_parts.mpr ⟨by simp, fun back member => ?_⟩
    obtain ⟨raw, -, shrinks⟩ := each back member
    exact shrinks.textual

theorem nestingOfPairs_mapDocument {raws : List (String × MsgPack)} :
    (mapDocument raws).nesting =
      2 + MsgPack.nestingOfPairs (raws.map fun entry => (.ofText entry.1, entry.2)) := rfl

theorem shrinks_map {pairs : List (MsgPack × MsgPack)} {backs : List (String × MsgPack)}
    (length : backs.length ≤ pairs.length)
    (each : ∀ entry ∈ backs, ∃ pair ∈ pairs, pair.1 = .ofText entry.1 ∧ Shrinks pair.2 entry.2) :
    Shrinks (.map pairs) (mapDocument backs) where
  nesting := by
    have deepest : MsgPack.nestingOfPairs (backs.map fun entry => (.ofText entry.1, entry.2)) ≤
        MsgPack.nestingOfPairs pairs := by
      apply MsgPack.nestingOfPairs_le_iff.mpr
      rw [List.forall_mem_map]
      intro entry member
      obtain ⟨pair, here, key, shrinks⟩ := each entry member
      have inside := MsgPack.nestingOfPairs_le_iff.mp (Nat.le_refl _) pair here
      rw [key] at inside
      exact ⟨inside.1, Nat.le_trans shrinks.nesting inside.2⟩
    rw [nestingOfPairs_mapDocument, MsgPack.nesting]
    omega
  sized sized := by
    obtain ⟨fits, inside⟩ := MsgPack.sized_iff.mp sized
    refine MsgPack.sized_iff.mpr ⟨?_, fun child member => ?_⟩
    · rw [mapDocument, MsgPack.size, List.length_map]
      exact Nat.lt_of_le_of_lt length fits
    · obtain ⟨entry, inBacks, side⟩ := mem_children_mapDocument_iff.mp member
      obtain ⟨pair, here, key, shrinks⟩ := each entry inBacks
      have both : ∀ part ∈ [pair.1, pair.2], part.Sized := by
        intro part at_
        exact inside part (List.mem_flatMap.mpr ⟨pair, here, at_⟩)
      rcases side with rfl | rfl
      · rw [← key]
        exact both _ (by simp)
      · exact shrinks.sized (both _ (by simp))
  textual := by
    refine MsgPack.forall_mem_parts.mpr ⟨by simp [mapDocument], fun child member => ?_⟩
    obtain ⟨entry, inBacks, side⟩ := mem_children_mapDocument_iff.mp member
    obtain ⟨pair, -, -, shrinks⟩ := each entry inBacks
    rcases side with rfl | rfl
    · exact MsgPack.forall_mem_parts.mpr ⟨by simp [MsgPack.ofText], by
        simp [MsgPack.ofText, MsgPack.children]⟩
    · exact shrinks.textual

/-- What is read from a document can be written again, as a document that takes no more room. -/
def Rewritten (raw : MsgPack) : Prop :=
  ∀ ty value, ty.Ordered → ty.Rigid → read raw ty = .ok value →
    ∃ back, document value ty = .ok back ∧ Shrinks raw back

theorem rewritten_readScalar {raw : MsgPack} {ty : Ty} {value : Value}
    (done : readScalar raw ty = .ok value) :
    ∃ back, document value ty = .ok back ∧ Shrinks raw back := by
  unfold readScalar at done
  split at done
  · cases done
  · cases done
    exact ⟨.bool _, rfl, shrinks_of_scalar (Nat.le_refl _) (Nat.le_refl _) rfl (by simp)⟩
  · split at done
    · rename_i x found
      cases done
      refine ⟨_, write_number_eq_ok.mpr ⟨rfl, isNaN_of_numberOf? found, rfl⟩, ?_⟩
      have room : 1 ≤ raw.nesting := raw.nesting_pos
      cases x.integral with
      | some n => exact shrinks_of_scalar room (Nat.zero_le _) rfl (by simp)
      | none => exact shrinks_of_scalar room (Nat.zero_le _) rfl (by simp)
    · cases done
  · split at done
    · rename_i text found
      cases done
      have same := eq_ofText_of_asText? found
      refine ⟨.ofText text, rfl, ?_⟩
      rw [same]
      exact shrinks_of_scalar (Nat.le_refl _) (Nat.le_refl _) rfl (by simp [MsgPack.ofText])
    · cases done
  · cases done

variable {β γ η τ δ ε : Type}

/-- Where all that was read at a place can be written there again, all of it can be written. -/
theorem exists_backs {reader : β → τ → Except δ γ} {writer : γ → τ → Except ε η} {R : β → η → Prop}
    {raws : List β} {places : List τ} {values : List γ}
    (results : List.zipWith reader raws places = values.map .ok)
    (step : ∀ raw ∈ raws, ∀ place ∈ places, ∀ value ∈ values, reader raw place = .ok value →
      ∃ back, writer value place = .ok back ∧ R raw back) :
    ∃ backs : List η, List.zipWith writer values places = backs.map .ok ∧
      backs.length = values.length ∧ ∀ back ∈ backs, ∃ raw ∈ raws, R raw back := by
  induction values generalizing raws places with
  | nil => exact ⟨[], by simp, rfl, List.forall_mem_nil _⟩
  | cons value values ih =>
      cases raws with
      | nil => simp at results
      | cons raw raws =>
          cases places with
          | nil => simp at results
          | cons place places =>
              simp only [List.zipWith_cons_cons, List.map_cons, List.cons.injEq] at results
              obtain ⟨back, made, related⟩ :=
                step raw (by simp) place (by simp) value (by simp) results.1
              obtain ⟨backs, others, length, origins⟩ :=
                ih results.2 fun raw inRaws place inPlaces value inValues =>
                  step raw (List.mem_cons_of_mem _ inRaws) place (List.mem_cons_of_mem _ inPlaces)
                    value (List.mem_cons_of_mem _ inValues)
              refine ⟨back :: backs, by simp [made, others], by simp [length], ?_⟩
              rw [List.forall_mem_cons]
              refine ⟨⟨raw, by simp, related⟩, fun other member => ?_⟩
              obtain ⟨from_, here, same⟩ := origins other member
              exact ⟨from_, List.mem_cons_of_mem _ here, same⟩

theorem items?_sequenceOf (ty : Ty) (items : List Value) :
    (Value.sequenceOf ty items).items? = some items := by
  cases ty <;> rfl

theorem entries?_collectionOf (ty : Ty) (entries : List (String × Value)) :
    (Value.collectionOf ty entries).entries? = some entries := by
  cases ty <;> rfl

theorem rewritten_array {raws : List MsgPack} (inside : ∀ raw ∈ raws, Rewritten raw) :
    Rewritten (.array raws) := by
  intro ty value ordered rigid done
  obtain ⟨typed, rigidInside⟩ := Ty.rigid_iff.mp rigid
  rw [read_array typed] at done
  obtain ⟨types, places, values, results, rfl⟩ := readArray_eq_ok.mp done
  have typesOrdered := Ty.ordered_of_itemTypes? ordered places
  have typesRigid : ∀ type ∈ types, type.Rigid := by
    intro type member
    exact rigidInside type (Ty.mem_children_of_itemTypes? places type member)
  have length := length_of_zipWith results (Ty.length_of_itemTypes? places)
  obtain ⟨backs, made, count, origins⟩ := exists_backs results
    fun raw inRaws type inTypes value _ found =>
      inside raw inRaws type value (typesOrdered type inTypes) (typesRigid type inTypes) found
  refine ⟨.array backs, ?_, shrinks_array (by omega) origins⟩
  rw [document_of_typed _ typed, write_of_items? _ (items?_sequenceOf ty values)]
  exact writeItems_eq_ok.mpr ⟨types, by rw [length]; exact places, backs, made, rfl⟩

theorem rewritten_map {pairs : List (MsgPack × MsgPack)}
    (inside : ∀ pair ∈ pairs, Rewritten pair.2) : Rewritten (.map pairs) := by
  intro ty value ordered rigid done
  obtain ⟨typed, rigidInside⟩ := Ty.rigid_iff.mp rigid
  rw [read, pairReaders_eq] at done
  obtain ⟨entries, fields, rfl, sorted, places, names, fewer, origins⟩ :=
    places_of_readMap ordered done
  have declared := Ty.entryType?_of_entryTypes? ordered places
  have each : ∀ field ∈ fields, ∃ back, document (Value.entry entries field.1) field.2 = .ok back ∧
      ∃ pair ∈ pairs, pair.1 = .ofText field.1 ∧ Shrinks pair.2 back := by
    intro field member
    have named : field.1 ∈ Dict.keys entries := names ▸ Dict.mem_keys_of_mem member
    obtain ⟨entry, here, same⟩ := List.mem_map.mp named
    obtain ⟨pair, inPairs, type, text, own, found⟩ := origins entry here
    obtain ⟨raw, inRaws, rfl⟩ := List.mem_map.mp inPairs
    have isField : type = field.2 := by
      rw [same, declared field member] at own
      exact (Option.some.inj own).symm
    subst isField
    have child := Ty.mem_children_of_entryTypes? places field member
    obtain ⟨back, made, shrinks⟩ := inside raw inRaws field.2 entry.2
      ((Ty.ordered_iff.mp ordered).2 _ child) (rigidInside _ child) found
    rw [← same, entry_of_mem sorted here]
    exact ⟨back, made, raw, inRaws, eq_ofText_of_asText? text, shrinks⟩
  -- the later of two pairs with one name counts, so that the fields come from some of the pairs
  obtain ⟨backs, made⟩ := exists_named_results.mpr fun field member => by
    obtain ⟨back, done, -⟩ := each field member
    exact ⟨back, done⟩
  refine ⟨mapDocument backs, ?_, shrinks_map ?_ fun entry member => ?_⟩
  · rw [document_of_typed _ typed, write_of_entries? _ (entries?_collectionOf ty entries)]
    exact (writeEntries_eq_ok document_null sorted).mpr ⟨fields, places, backs, made, rfl⟩
  · have sameFields := congrArg List.length made
    have sameEntries := congrArg List.length names
    simp only [List.length_map, Dict.keys] at sameFields sameEntries fewer
    omega
  · obtain ⟨field, inFields, label, content⟩ := mem_of_fields made member
    obtain ⟨other, done, pair, here, key, shrinks⟩ := each field inFields
    obtain rfl : other = entry.2 := Except.ok.inj (done.symm.trans content)
    exact ⟨pair, here, label ▸ key, shrinks⟩

theorem rewritten_read (raw : MsgPack) : Rewritten raw := by
  induction raw with
  | nil =>
      intro ty value _ _ done
      cases done
      have shrinks : Shrinks .nil .nil :=
        shrinks_of_scalar (Nat.le_refl _) (Nat.le_refl _) rfl (by simp)
      exact ⟨.nil, document_null ty, shrinks⟩
  | extension type bytes =>
      intro ty value _ rigid done
      cases done
      obtain ⟨typed, -⟩ := Ty.rigid_iff.mp rigid
      refine ⟨unknownDocument, document_of_typed _ typed, ?_, ?_, ?_⟩
      · exact Nat.le_refl 3
      · intro _
        exact MsgPack.sized_iff.mpr ⟨by decide, List.forall_mem_nil _⟩
      · exact MsgPack.forall_mem_parts.mpr ⟨by simp [unknownDocument], List.forall_mem_nil _⟩
  | array raws ih => exact rewritten_array ih
  | map pairs ih => exact rewritten_map fun pair member => (ih pair member).2
  | _ => exact fun ty value _ _ done => rewritten_readScalar done

theorem forall₂_zipWith {α : Type} {R : γ → α → Prop} {f : γ → τ → α} {values : List γ}
    {places : List τ} (length : values.length = places.length)
    (each : ∀ place ∈ values.zip places, R place.1 (f place.1 place.2)) :
    List.Forall₂ R values (List.zipWith f values places) := by
  induction values generalizing places with
  | nil => exact .nil
  | cons value values ih =>
      cases places with
      | nil => simp at length
      | cons place places =>
          rw [List.zip_cons_cons, List.forall_mem_cons] at each
          exact .cons each.1 (ih (by simpa using length) each.2)

/-- Entries and fields with the same names belong together one by one. -/
theorem forall₂_of_names {R : String × γ → String × τ → Prop} {entries : List (String × γ)}
    {fields : List (String × τ)} (names : Dict.keys entries = Dict.keys fields)
    (each : ∀ entry ∈ entries, ∀ field ∈ fields, entry.1 = field.1 → R entry field) :
    List.Forall₂ R entries fields := by
  induction entries generalizing fields with
  | nil =>
      cases fields with
      | nil => exact .nil
      | cons field fields => simp at names
  | cons entry entries ih =>
      cases fields with
      | nil => simp at names
      | cons field fields =>
          simp only [Dict.keys_cons, List.cons.injEq] at names
          refine .cons (each entry (by simp) field (by simp) names.1) (ih names.2 ?_)
          intro other member place there same
          exact each other (List.mem_cons_of_mem _ member) place (List.mem_cons_of_mem _ there) same

theorem equal_reshaped_items (ty : Ty) {items : List Value} {types : List Ty}
    (typed : ty ≠ .dynamic) (places : ty.itemTypes? items.length = some types)
    (each : ∀ place ∈ items.zip types, place.1.equal (place.1.reshaped place.2) = true) :
    (Value.sequenceOf ty items).equal ((Value.sequenceOf ty items).reshaped ty) = true := by
  have shape : (Value.sequenceOf ty items).reshaped ty =
      .sequenceOf ty (List.zipWith Value.reshaped items types) := by
    rw [Value.reshaped_of_typed _ typed, ← Value.reshapeItems_of_places places]
    cases ty <;> rfl
  have inside : Value.equalItems items (List.zipWith Value.reshaped items types) = true := by
    apply Value.equalItems_iff.mpr
    exact forall₂_zipWith (Ty.length_of_itemTypes? places).symm each
  rw [shape]
  cases ty with
  | list element | set element | tuple elements => exact inside
  | _ => cases places

theorem equal_reshaped_entries (ty : Ty) {entries : List (String × Value)}
    {fields : List (String × Ty)} (typed : ty ≠ .dynamic) (sorted : Dict.Sorted entries)
    (places : ty.entryTypes? (Dict.keys entries) = some fields)
    (names : Dict.keys entries = Dict.keys fields)
    (each : ∀ entry ∈ entries, ∀ field ∈ fields, entry.1 = field.1 →
      entry.2.equal (entry.2.reshaped field.2) = true) :
    (Value.collectionOf ty entries).equal ((Value.collectionOf ty entries).reshaped ty) = true := by
  let back := fields.map fun field => (field.1, (Value.entry entries field.1).reshaped field.2)
  have shape : (Value.collectionOf ty entries).reshaped ty = .collectionOf ty back := by
    rw [Value.reshaped_of_typed _ typed, ← Value.reshapeEntries_of_places sorted places]
    cases ty <;> rfl
  have inside : Value.equalEntries entries back = true := by
    apply Value.equalEntries_iff.mpr
    rw [List.forall₂_map_right_iff]
    apply forall₂_of_names names
    intro entry member field there same
    rw [← same, entry_of_mem sorted member]
    exact ⟨rfl, each entry member field there same⟩
  rw [shape]
  cases ty with
  | map element | object attributes => exact inside
  | _ => cases places

/-- A value of a type without dynamic parts comes back as itself. -/
theorem equal_reshaped {format : Format} {value : Value} {ty : Ty}
    (hasType : HasType format value ty) (typeOrdered : ty.Ordered) (rigid : ty.Rigid)
    (ordered : value.Ordered) : value.equal (value.reshaped ty) = true := by
  induction hasType with
  | null ty =>
      rw [Value.reshaped_null]
      rfl
  | unknown _ ty =>
      rw [Value.reshaped_of_typed _ (Ty.rigid_iff.mp rigid).1]
      exact beq_self_eq_true ty
  | dynamic => exact absurd rfl (Ty.rigid_iff.mp rigid).1
  | bool b => exact beq_self_eq_true b
  | number real => exact Binary64.equal_unsignZero real
  | string text => exact beq_self_eq_true text
  | @list items element _ ih =>
      obtain ⟨-, itemsOrdered⟩ := Value.ordered_iff.mp ordered
      have inside := (Ty.ordered_iff.mp typeOrdered).2 element (List.mem_singleton_self element)
      have rigidInside := (Ty.rigid_iff.mp rigid).2 element (List.mem_singleton_self element)
      apply equal_reshaped_items (.list element) (by simp) rfl
      intro place member
      obtain ⟨here, there⟩ := List.of_mem_zip member
      rw [List.eq_of_mem_replicate there]
      exact ih place.1 here inside rigidInside (itemsOrdered place.1 here)
  | @set items element _ ih =>
      obtain ⟨-, itemsOrdered⟩ := Value.ordered_iff.mp ordered
      have inside := (Ty.ordered_iff.mp typeOrdered).2 element (List.mem_singleton_self element)
      have rigidInside := (Ty.rigid_iff.mp rigid).2 element (List.mem_singleton_self element)
      apply equal_reshaped_items (.set element) (by simp) rfl
      intro place member
      obtain ⟨here, there⟩ := List.of_mem_zip member
      rw [List.eq_of_mem_replicate there]
      exact ih place.1 here inside rigidInside (itemsOrdered place.1 here)
  | @tuple items elements arity _ ih =>
      obtain ⟨-, itemsOrdered⟩ := Value.ordered_iff.mp ordered
      have places : (Ty.tuple elements).itemTypes? items.length = some elements := by
        rw [Ty.itemTypes?, if_pos arity]
      apply equal_reshaped_items (.tuple elements) (by simp) places
      intro place member
      obtain ⟨here, there⟩ := List.of_mem_zip member
      exact ih place member ((Ty.ordered_iff.mp typeOrdered).2 _ there)
        ((Ty.rigid_iff.mp rigid).2 _ there) (itemsOrdered place.1 here)
  | @map entries element _ ih =>
      obtain ⟨sorted, entriesOrdered⟩ := Value.ordered_iff.mp ordered
      have inside := (Ty.ordered_iff.mp typeOrdered).2 element (List.mem_singleton_self element)
      have rigidInside := (Ty.rigid_iff.mp rigid).2 element (List.mem_singleton_self element)
      apply equal_reshaped_entries (.map element) (by simp) sorted rfl (Dict.keys_map_pair _ _).symm
      intro entry member field there _
      obtain ⟨name, -, rfl⟩ := List.mem_map.mp there
      exact ih entry member inside rigidInside (entriesOrdered _ (List.mem_map_of_mem member))
  | @object entries attributes names _ ih =>
      obtain ⟨sorted, entriesOrdered⟩ := Value.ordered_iff.mp ordered
      obtain ⟨ascending, inside⟩ := Ty.ordered_iff.mp typeOrdered
      have places : (Ty.object attributes).entryTypes? (Dict.keys entries) = some attributes := by
        rw [Ty.entryTypes?, names, if_pos (List.Subset.refl _)]
      apply equal_reshaped_entries (.object attributes) (by simp) sorted places names
      intro entry member field there same
      have declared : Dict.get? attributes entry.1 = some field.2 := by
        rw [same]
        exact (Dict.get?_eq_some_iff (Dict.Sorted.nodup ascending)).mpr there
      have child := List.mem_map_of_mem (f := Prod.snd) there
      exact ih entry member field.2 declared (inside _ child) ((Ty.rigid_iff.mp rigid).2 _ child)
        (entriesOrdered _ (List.mem_map_of_mem member))

/-- What was read under a type without dynamic parts is written again and read as the same. -/
theorem exists_encode_of_decode {bytes : List UInt8} {ty : Ty} {value : Value}
    (ordered : ty.Ordered) (rigid : ty.Rigid) (done : decode bytes ty = .ok value) :
    ∃ again, encode value ty = .ok again ∧
      ∃ back, decode again ty = .ok back ∧ value.equal back = true := by
  obtain ⟨raw, within, found⟩ := exists_of_decode done
  obtain ⟨hasType, valueOrdered⟩ := sound_read raw ty value ordered found
  obtain ⟨back, made, shrinks⟩ := rewritten_read raw ty value ordered rigid found
  have shallow : back.nesting ≤ MsgPack.depthBudget := Nat.le_trans shrinks.nesting within.nesting
  have read := decode_written valueOrdered ordered made (shrinks.sized within.sized)
    (MsgPack.legible_of_textual shrinks.textual) shallow
  refine ⟨back.write, ?_, value.reshaped ty, read, ?_⟩
  · rw [encode, made]
    rfl
  · exact equal_reshaped hasType ordered rigid valueOrdered

end Binary

/-- Of whatever bytes, in either form, only a value of the type is read; and what was read from the
binary form under a type without dynamic parts can be written under it again, and is then read as an
equal value. -/
theorem hasType_of_decode {ty : Ty} (ordered : ty.Ordered) :
    (∀ bytes value, decodeBinary bytes ty = .ok value → HasType .binary value ty) ∧
      (∀ bytes value, decodeText bytes ty = .ok value → HasType .text value ty) ∧
        (ty.Rigid → ∀ bytes value, decodeBinary bytes ty = .ok value →
          ∃ again, encodeBinary value ty = .ok again ∧
            ∃ back, decodeBinary again ty = .ok back ∧ value.equal back = true) := by
  refine ⟨fun bytes value done => ?_, fun bytes value done => ?_, fun rigid bytes value done => ?_⟩
  · obtain ⟨raw, -, found⟩ := Binary.exists_of_decode (mapError_eq_ok.mp done)
    exact (Binary.sound_read raw ty value ordered found).1
  · exact Text.hasType_decode ordered (mapError_eq_ok.mp done)
  · obtain ⟨again, written, back, read, equal⟩ :=
      Binary.exists_encode_of_decode ordered rigid (mapError_eq_ok.mp done)
    exact ⟨again, mapError_eq_ok.mpr written, back, mapError_eq_ok.mpr read, equal⟩

/-- A number and a null are read as a list of numbers, from either form. -/
theorem hasType_of_decode_list :
    let ty := Ty.list .number
    let value := Value.list [.ofInt 5, .null]
    ty.Ordered ∧ ty.Rigid ∧ decodeBinary [0x92, 0x05, 0xc0] ty = .ok value ∧
      decodeText [0x5b, 0x35, 0x2c, 0x6e, 0x75, 0x6c, 0x6c, 0x5d] ty = .ok value ∧
        HasType .binary value ty ∧ HasType .text value ty ∧
          ∃ again, encodeBinary value ty = .ok again ∧
            ∃ back, decodeBinary again ty = .ok back ∧ value.equal back = true := by
  intro ty value
  have ordered : ty.Ordered := by
    intro part member
    simp only [ty, Ty.parts, List.mem_cons, List.not_mem_nil, or_false] at member
    rcases member with rfl | rfl <;> trivial
  have rigid : ty.Rigid := by
    intro part member
    simp only [ty, Ty.parts, List.mem_cons, List.not_mem_nil, or_false] at member
    rcases member with rfl | rfl <;> simp
  have binary : decodeBinary [0x92, 0x05, 0xc0] ty = .ok value := by rfl
  have text : decodeText [0x5b, 0x35, 0x2c, 0x6e, 0x75, 0x6c, 0x6c, 0x5d] ty = .ok value := by rfl
  obtain ⟨ofBinary, ofText, again⟩ := hasType_of_decode ordered
  exact ⟨ordered, rigid, binary, text, ofBinary _ _ binary, ofText _ _ text, again rigid _ _ binary⟩

end Wire

end ScriptHost
