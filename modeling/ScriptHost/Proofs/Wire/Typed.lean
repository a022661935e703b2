import ScriptHost.Proofs.MsgPack.Bounds
import ScriptHost.Proofs.Wire.Conform
import ScriptHost.Proofs.Wire.Limits

set_option autoImplicit false

namespace ScriptHost

namespace Binary64

theorem isNaN_of_ofPaddedText? {text : String} {x : Binary64}
    (spelled : ofPaddedText? text = some x) : x.isNaN = false := by
  rw [ofPaddedText?] at spelled
  split at spelled
  · split at spelled
    · cases spelled
    · rename_i real
      cases spelled
      simpa using real
  · cases spelled

end Binary64

namespace Ty

theorem mem_children_of_entryType? {name : String} {ty type : Ty}
    (typed : ty.entryType? name = some type) : type ∈ ty.children := by
  cases ty with
  | map element =>
      cases typed
      exact List.mem_singleton_self type
  | object attributes =>
      have member : (name, type) ∈ attributes := Dict.mem_of_get? typed
      exact List.mem_map_of_mem member
  | _ => cases typed

end Ty

namespace Wire

/-- A value of a type, as a format can carry it. Null stands anywhere; what is not known stands
anywhere too, in the binary form alone, and has the type of its place. -/
inductive HasType (format : Format) : Value → Ty → Prop
  | null (ty : Ty) : HasType format .null ty
  | unknown (binary : format = .binary) (ty : Ty) : HasType format (.unknown ty) ty
  | dynamic {value : Value} {ty : Ty} (typed : ty ≠ .dynamic) (inside : HasType format value ty) :
      HasType format value .dynamic
  | bool (b : Bool) : HasType format (.bool b) .bool
  | number {x : Binary64} (real : x.isNaN = false) : HasType format (.number x) .number
  | string (text : String) : HasType format (.string text) .string
  | list {items : List Value} {element : Ty} (each : ∀ item ∈ items, HasType format item element) :
      HasType format (.list items) (.list element)
  | set {items : List Value} {element : Ty} (each : ∀ item ∈ items, HasType format item element) :
      HasType format (.set items) (.set element)
  | tuple {items : List Value} {elements : List Ty} (arity : items.length = elements.length)
      (each : ∀ place ∈ items.zip elements, HasType format place.1 place.2) :
      HasType format (.tuple items) (.tuple elements)
  | map {entries : List (String × Value)} {element : Ty}
      (each : ∀ entry ∈ entries, HasType format entry.2 element) :
      HasType format (.map entries) (.map element)
  | object {entries : List (String × Value)} {attributes : List (String × Ty)}
      (names : Dict.keys entries = Dict.keys attributes)
      (each : ∀ entry ∈ entries, ∀ ty, Dict.get? attributes entry.1 = some ty →
        HasType format entry.2 ty) :
      HasType format (.object entries) (.object attributes)

/-- Whatever a reader gives under a type is an ordered value of the type. -/
def Sound (format : Format) (reader : Ty → Decoded Value) : Prop :=
  ∀ ty value, ty.Ordered → reader ty = .ok value → HasType format value ty ∧ value.Ordered

theorem ordered_of_scalar {value : Value} (ascend : value.NamesAscend)
    (none : value.children = []) : value.Ordered :=
  Value.ordered_iff.mpr ⟨ascend, by simp [none]⟩

section Containers

variable {β γ τ δ : Type} {format : Format}

/-- What stands at a place of results was read there. -/
theorem exists_of_zipWith {reader : β → τ → Except δ γ} {raws : List β} {places : List τ}
    {values : List γ} (results : List.zipWith reader raws places = values.map .ok) :
    ∀ place ∈ values.zip places, ∃ raw ∈ raws, reader raw place.2 = .ok place.1 := by
  induction values generalizing raws places with
  | nil => simp
  | cons value values ih =>
      cases raws with
      | nil => simp at results
      | cons raw raws =>
          cases places with
          | nil => simp
          | cons place places =>
              simp only [List.zipWith_cons_cons, List.map_cons, List.cons.injEq] at results
              rw [List.zip_cons_cons, List.forall_mem_cons]
              refine ⟨⟨raw, List.mem_cons_self, results.1⟩, fun other member => ?_⟩
              obtain ⟨inner, here, found⟩ := ih results.2 other member
              exact ⟨inner, List.mem_cons_of_mem raw here, found⟩

/-- Items that were read under the types of their places make a sequence of the type. -/
theorem sound_items {reader : β → Ty → Decoded Value} {raws : List β}
    (inside : ∀ raw ∈ raws, Sound format (reader raw)) {ty : Ty} {types : List Ty}
    {values : List Value} (ordered : ty.Ordered) (places : ty.itemTypes? raws.length = some types)
    (results : List.zipWith reader raws types = values.map .ok) :
    HasType format (.sequenceOf ty values) ty ∧ (Value.sequenceOf ty values).Ordered := by
  have typesOrdered := Ty.ordered_of_itemTypes? ordered places
  have sameLength := Ty.length_of_itemTypes? places
  have length : values.length = raws.length := length_of_zipWith results sameLength
  have each : ∀ place ∈ values.zip types, HasType format place.1 place.2 ∧ place.1.Ordered := by
    intro place member
    obtain ⟨raw, here, found⟩ := exists_of_zipWith results place member
    exact inside raw here place.2 place.1 (typesOrdered _ (List.of_mem_zip member).2) found
  have zipped {value : Value} (member : value ∈ values) :
      ∃ type, (value, type) ∈ values.zip types :=
    Binary.exists_mem_zip (by omega) member
  have valuesOrdered : ∀ value ∈ values, value.Ordered := by
    intro value member
    obtain ⟨type, here⟩ := zipped member
    exact (each _ here).2
  have uniform {element : Ty} (same : types = List.replicate raws.length element) :
      ∀ value ∈ values, HasType format value element := by
    intro value member
    obtain ⟨type, here⟩ := zipped member
    have inside := (List.of_mem_zip here).2
    rw [same] at inside
    obtain rfl : type = element := List.eq_of_mem_replicate inside
    exact (each _ here).1
  refine ⟨?_, ?_⟩
  · obtain ⟨element, rfl | rfl, same⟩ | ⟨rfl, -⟩ := Ty.itemTypes?_eq_some.mp places
    · exact .list (uniform same)
    · exact .set (uniform same)
    · exact .tuple (by omega) fun place member => (each place member).1
  · apply Value.ordered_iff.mpr
    obtain ⟨element, rfl | rfl, -⟩ | ⟨rfl, -⟩ := Ty.itemTypes?_eq_some.mp places <;>
      exact ⟨trivial, valuesOrdered⟩

/-- Entries that were read under the types of their names make a collection of the type. -/
theorem sound_entries {ty : Ty} {fields : List (String × Ty)} {entries : List (String × Value)}
    (sorted : Dict.Sorted entries) (places : ty.entryTypes? (Dict.keys entries) = some fields)
    (names : Dict.keys entries = Dict.keys fields)
    (each : ∀ entry ∈ entries, ∃ type, ty.entryType? entry.1 = some type ∧
      HasType format entry.2 type ∧ entry.2.Ordered) :
    HasType format (.collectionOf ty entries) ty ∧ (Value.collectionOf ty entries).Ordered := by
  have entriesOrdered : ∀ child ∈ entries.map Prod.snd, child.Ordered := by
    rw [List.forall_mem_map]
    intro entry member
    obtain ⟨type, -, -, ordered⟩ := each entry member
    exact ordered
  obtain ⟨element, rfl, -⟩ | ⟨rfl, -⟩ := Ty.entryTypes?_eq_some.mp places
  · refine ⟨.map fun entry member => ?_, Value.ordered_iff.mpr ⟨sorted, entriesOrdered⟩⟩
    obtain ⟨type, same, typed, -⟩ := each entry member
    cases same
    exact typed
  · refine ⟨.object names fun entry member type declared => ?_,
      Value.ordered_iff.mpr ⟨sorted, entriesOrdered⟩⟩
    obtain ⟨other, same, typed, -⟩ := each entry member
    obtain rfl : other = type := Option.some.inj (same.symm.trans declared)
    exact typed

end Containers

namespace Binary

theorem isNaN_of_numberOf? {raw : MsgPack} {x : Binary64} (found : numberOf? raw = some x) :
    x.isNaN = false := by
  cases raw with
  | integer n =>
      cases found
      exact Binary64.isNaN_ofInt n
  | single bits =>
      rw [numberOf?] at found
      split at found
      · cases found
      · rename_i real
        cases found
        simpa using real
  | double y =>
      rw [numberOf?] at found
      split at found
      · cases found
      · rename_i real
        cases found
        simpa using real
  | string bytes =>
      obtain ⟨text, -, spelled⟩ := Option.bind_eq_some_iff.mp found
      exact Binary64.isNaN_of_ofPaddedText? spelled
  | _ => cases found

theorem sound_readScalar (raw : MsgPack) : Sound .binary (readScalar raw) := by
  intro ty value _ done
  unfold readScalar at done
  split at done
  · cases done
  · cases done
    exact ⟨.bool _, ordered_of_scalar trivial rfl⟩
  · split at done
    · rename_i x found
      cases done
      exact ⟨.number (isNaN_of_numberOf? found), ordered_of_scalar trivial rfl⟩
    · cases done
  · split at done
    · cases done
      exact ⟨.string _, ordered_of_scalar trivial rfl⟩
    · cases done
  · cases done

/-- Each entry was read from some pair, under the type that its name has. -/
theorem entries_of_readEntries {ty : Ty} {typeOf : String → Option Ty}
    {pairs : List (MsgPack × (Ty → Decoded Value))} {entries : List (String × Value)}
    (done : readEntries ty typeOf [] pairs = .ok entries) :
    Dict.Sorted entries ∧ entries.length ≤ pairs.length ∧
      ∀ entry ∈ entries, ∃ pair ∈ pairs, ∃ type, pair.1.asText? = some entry.1 ∧
        typeOf entry.1 = some type ∧ pair.2 type = .ok entry.2 := by
  obtain ⟨-, rfl⟩ := readEntries_eq_ok.mp done
  have fewer := Dict.length_ofList_le (pairs.filterMap (entryOf? typeOf))
  refine ⟨Dict.sorted_ofList _, fewer.trans (List.length_filterMap_le _ _), fun entry member => ?_⟩
  obtain ⟨pair, here, found⟩ := List.mem_filterMap.mp (Dict.mem_of_mem_ofList member)
  obtain ⟨text, type, typed, read⟩ := entryOf?_eq_some.mp found
  exact ⟨pair, here, type, text, typed, read⟩

/-- A map is read only if every entry is read at its place. Of two pairs with one name the later
counts, so that there may be fewer entries than pairs. -/
theorem places_of_readMap {ty : Ty} {pairs : List (MsgPack × (Ty → Decoded Value))} {value : Value}
    (ordered : ty.Ordered) (done : readMap ty pairs = .ok value) :
    ∃ entries fields, .collectionOf ty entries = value ∧ Dict.Sorted entries ∧
      ty.entryTypes? (Dict.keys entries) = some fields ∧ Dict.keys entries = Dict.keys fields ∧
      entries.length ≤ pairs.length ∧ ∀ entry ∈ entries, ∃ pair ∈ pairs, ∃ type,
        pair.1.asText? = some entry.1 ∧ ty.entryType? entry.1 = some type ∧
          pair.2 type = .ok entry.2 := by
  cases ty with
  | map element =>
      rw [readMap, map_eq_ok] at done
      obtain ⟨entries, all, made⟩ := done
      obtain ⟨sorted, fewer, origins⟩ := entries_of_readEntries all
      exact ⟨entries, _, made, sorted, rfl, (Dict.keys_map_pair _ _).symm, fewer, origins⟩
  | object attributes =>
      rw [readMap] at done
      cases all : readEntries (.object attributes) (Dict.get? attributes) [] pairs with
      | error failure => simp [all] at done
      | ok entries =>
          obtain ⟨sorted, fewer, origins⟩ := entries_of_readEntries all
          simp only [all, complete] at done
          split at done
          · cases done
          · rename_i none
            have ascending : Dict.Sorted attributes := (Ty.ordered_iff.mp ordered).1
            have names : Dict.keys entries = Dict.keys attributes := by
              apply Dict.keys_eq_of_mem sorted ascending
              intro name
              constructor
              · intro member
                obtain ⟨entry, here, rfl⟩ := List.mem_map.mp member
                obtain ⟨pair, -, type, -, typed, -⟩ := origins entry here
                exact Dict.mem_keys_of_mem (Dict.mem_of_get? typed)
              · exact fun member => Dict.find?_missing_eq_none.mp none member
            have places :
                (Ty.object attributes).entryTypes? (Dict.keys entries) = some attributes := by
              rw [Ty.entryTypes?, names, if_pos (List.Subset.refl _)]
            exact ⟨entries, attributes, Except.ok.inj done, sorted, places, names, fewer, origins⟩
  | _ => cases done

theorem ordered_of_declaredType {raw : MsgPack} {ty : Ty} (declared : declaredType raw = .ok ty) :
    ty.Ordered ∧ ty ≠ .dynamic := by
  unfold declaredType at declared
  split at declared
  all_goals try cases declared
  all_goals
    split at declared
    · cases declared
    · cases declared
    · rename_i bytes other untyped named
      cases declared
      exact ⟨Ty.ordered_of_ofBytes named, untyped⟩

/-- Under a dynamic type a document names the type of its value. -/
theorem sound_dynamic {raws : List MsgPack} (inside : ∀ raw ∈ raws, Sound .binary (read raw))
    {value : Value} (done : read (.array raws) .dynamic = .ok value) :
    HasType .binary value .dynamic ∧ value.Ordered := by
  rcases raws with _ | ⟨type, _ | ⟨inner, _ | ⟨more, rest⟩⟩⟩
  · cases done
  · cases done
  · rw [read] at done
    cases declared : declaredType type with
    | error failure => simp [declared] at done
    | ok ty =>
        simp only [declared] at done
        obtain ⟨ordered, typed⟩ := ordered_of_declaredType declared
        obtain ⟨hasType, valueOrdered⟩ := inside inner (by simp) ty value ordered done
        exact ⟨.dynamic typed hasType, valueOrdered⟩
  · cases done

/-- What is read from a document under a type is a value of the type. -/
theorem sound_read (raw : MsgPack) : Sound .binary (read raw) := by
  induction raw with
  | nil =>
      intro ty value _ done
      cases done
      exact ⟨.null ty, ordered_of_scalar trivial rfl⟩
  | extension type bytes =>
      intro ty value ordered done
      cases done
      exact ⟨.unknown rfl ty, ordered_of_scalar ordered rfl⟩
  | array items ih =>
      intro ty value ordered done
      by_cases untyped : ty = .dynamic
      · subst untyped
        exact sound_dynamic ih done
      · rw [read_array untyped] at done
        obtain ⟨types, places, values, results, rfl⟩ := readArray_eq_ok.mp done
        exact sound_items ih ordered places results
  | map pairs ih =>
      intro ty value ordered done
      rw [read, pairReaders_eq] at done
      obtain ⟨entries, fields, rfl, sorted, places, names, -, origins⟩ :=
        places_of_readMap ordered done
      apply sound_entries sorted places names
      intro entry member
      obtain ⟨pair, inside, type, -, typed, found⟩ := origins entry member
      obtain ⟨raw, here, rfl⟩ := List.mem_map.mp inside
      have typeOrdered : type.Ordered :=
        (Ty.ordered_iff.mp ordered).2 type (Ty.mem_children_of_entryType? typed)
      exact ⟨type, typed, (ih raw here).2 type entry.2 typeOrdered found⟩
  | _ => exact sound_readScalar _

end Binary

end Wire

end ScriptHost
