import ScriptHost.Proofs.Value.Equal
import ScriptHost.Proofs.Wire.Places

set_option autoImplicit false

namespace ScriptHost

/-- A value fits a type. Null and what is not known fit every type, and every value fits `dynamic`
that fits its own type. -/
inductive Fits : Value → Ty → Prop
  | null (ty : Ty) : Fits .null ty
  | unknown (known ty : Ty) : Fits (.unknown known) ty
  | own {value : Value} (typed : value.ty ≠ .dynamic) (fits : Fits value value.ty) :
      Fits value .dynamic
  | bool (b : Bool) : Fits (.bool b) .bool
  | number (x : Binary64) : Fits (.number x) .number
  | string (text : String) : Fits (.string text) .string
  | items {value : Value} {items : List Value} {ty : Ty} {types : List Ty}
      (sequence : value.items? = some items) (places : ty.itemTypes? items.length = some types)
      (fits : ∀ place ∈ items.zip types, Fits place.1 place.2) : Fits value ty
  | entries {value : Value} {entries : List (String × Value)} {ty : Ty}
      {fields : List (String × Ty)} (collection : value.entries? = some entries)
      (places : ty.entryTypes? (Dict.keys entries) = some fields)
      (fits : ∀ field ∈ fields, Fits (Value.entry entries field.1) field.2) : Fits value ty

namespace Fits

theorem own_iff {value : Value} : Fits value .dynamic ↔ Fits value value.ty := by
  constructor
  · intro fits
    cases fits with
    | null => exact .null _
    | unknown known => exact .unknown known _
    | own _ fits => exact fits
    | items _ places => cases places
    | entries _ places => cases places
  · intro fits
    by_cases typed : value.ty = .dynamic
    · rw [typed] at fits
      exact fits
    · exact .own typed fits

theorem items_iff {value : Value} {items : List Value} {ty : Ty} {types : List Ty}
    (sequence : value.items? = some items) (places : ty.itemTypes? items.length = some types) :
    Fits value ty ↔ ∀ place ∈ items.zip types, Fits place.1 place.2 := by
  constructor
  · intro fits
    cases fits with
    | items same also fits =>
        cases sequence.symm.trans same
        cases places.symm.trans also
        exact fits
    | entries same => cases value <;> simp_all [Value.items?, Value.entries?]
    | own => cases places
    | _ => cases sequence
  · exact .items sequence places

theorem entries_iff {value : Value} {entries : List (String × Value)} {ty : Ty}
    {fields : List (String × Ty)} (collection : value.entries? = some entries)
    (places : ty.entryTypes? (Dict.keys entries) = some fields) :
    Fits value ty ↔ ∀ field ∈ fields, Fits (Value.entry entries field.1) field.2 := by
  constructor
  · intro fits
    cases fits with
    | entries same also fits =>
        cases collection.symm.trans same
        cases places.symm.trans also
        exact fits
    | items same => cases value <;> simp_all [Value.items?, Value.entries?]
    | own => cases places
    | _ => cases collection
  · exact .entries collection places

end Fits

namespace Wire.Binary

variable {α β τ ε : Type}

/-- Every place has a result exactly if there are results for all. -/
theorem exists_results {f : α → τ → Except ε β} {items : List α} {places : List τ} :
    (∃ results : List β, List.zipWith f items places = results.map .ok) ↔
      ∀ place ∈ items.zip places, ∃ result, f place.1 place.2 = .ok result := by
  induction items generalizing places with
  | nil => simp
  | cons item rest ih =>
      cases places with
      | nil => simp
      | cons place places =>
          rw [List.zip_cons_cons, List.forall_mem_cons, ← ih]
          constructor
          · rintro ⟨results, same⟩
            cases results with
            | nil => simp at same
            | cons result results =>
                simp only [List.zipWith_cons_cons, List.map_cons, List.cons.injEq] at same
                exact ⟨⟨result, same.1⟩, results, same.2⟩
          · rintro ⟨⟨result, first⟩, results, others⟩
            exact ⟨result :: results, by rw [List.zipWith_cons_cons, first, others]; rfl⟩

theorem exists_named_results {f : String × τ → Except ε β} {fields : List (String × τ)} :
    (∃ results : List (String × β), (fields.map fun field => (field.1, f field)) =
        results.map fun entry => (entry.1, .ok entry.2)) ↔
      ∀ field ∈ fields, ∃ result, f field = .ok result := by
  induction fields with
  | nil => exact iff_of_true ⟨[], rfl⟩ (by simp)
  | cons field rest ih =>
      rw [List.forall_mem_cons, ← ih]
      constructor
      · rintro ⟨results, same⟩
        cases results with
        | nil => simp at same
        | cons entry results =>
            simp only [List.map_cons, List.cons.injEq, Prod.mk.injEq] at same
            exact ⟨⟨entry.2, same.1.2⟩, results, same.2⟩
      · rintro ⟨⟨result, first⟩, results, others⟩
        exact ⟨(field.1, result) :: results, by rw [List.map_cons, List.map_cons, first, others]⟩

theorem exists_document_of_items {value : Value} {items : List Value} {ty : Ty} {types : List Ty}
    (sequence : value.items? = some items) (places : ty.itemTypes? items.length = some types)
    (each : ∀ place ∈ items.zip types, ∃ raw, document place.1 place.2 = .ok raw) :
    ∃ raw, document value ty = .ok raw := by
  obtain ⟨raws, results⟩ := exists_results.mpr each
  refine ⟨.array raws, ?_⟩
  rw [document_of_typed _ (Ty.ne_dynamic_of_itemTypes? places), write_of_items? _ sequence]
  exact writeItems_eq_ok.mpr ⟨_, places, raws, results, rfl⟩

theorem exists_document_of_entries {value : Value} {entries : List (String × Value)} {ty : Ty}
    {fields : List (String × Ty)} (collection : value.entries? = some entries)
    (sorted : Dict.Sorted entries) (places : ty.entryTypes? (Dict.keys entries) = some fields)
    (each : ∀ field ∈ fields, ∃ raw, document (Value.entry entries field.1) field.2 = .ok raw) :
    ∃ raw, document value ty = .ok raw := by
  obtain ⟨raws, results⟩ := exists_named_results.mpr each
  refine ⟨mapDocument raws, ?_⟩
  rw [document_of_typed _ (Ty.ne_dynamic_of_entryTypes? places), write_of_entries? _ collection]
  exact (writeEntries_eq_ok document_null sorted).mpr ⟨_, places, raws, results, rfl⟩

/-- What fits its type and holds no NaN can be written. -/
theorem exists_document_of_fits {value : Value} {ty : Ty} (fits : Fits value ty)
    (ordered : value.Ordered) (numbers : ¬ value.HasNaN) :
    ∃ raw, document value ty = .ok raw := by
  induction fits with
  | null ty => exact ⟨_, document_null ty⟩
  | unknown known ty =>
      cases ty with
      | dynamic => cases known <;> exact ⟨_, rfl⟩
      | _ => exact ⟨_, rfl⟩
  | own typed _ ih =>
      obtain ⟨raw, written⟩ := ih ordered numbers
      rw [document_of_typed _ typed] at written
      exact ⟨_, by rw [document_dynamic_of_typed typed, written]; rfl⟩
  | bool b => exact ⟨_, rfl⟩
  | string text => exact ⟨_, rfl⟩
  | number x =>
      have notNaN := (Value.not_hasNaN_iff.mp numbers).1 x rfl
      exact ⟨_, write_number_eq_ok.mpr ⟨rfl, notNaN, rfl⟩⟩
  | items sequence places _ ih =>
      have itemsOrdered := (Value.ordered_iff.mp ordered).2
      have itemsNumbers := (Value.not_hasNaN_iff.mp numbers).2
      rw [Value.children_of_items? sequence] at itemsOrdered itemsNumbers
      refine exists_document_of_items sequence places fun place member => ?_
      have inside := (List.of_mem_zip member).1
      exact ih place member (itemsOrdered _ inside) (itemsNumbers _ inside)
  | entries collection places _ ih =>
      rename_i value entries ty fields
      have entriesOrdered := (Value.ordered_iff.mp ordered).2
      have entriesNumbers := (Value.not_hasNaN_iff.mp numbers).2
      rw [Value.children_of_entries? collection, List.forall_mem_map]
        at entriesOrdered entriesNumbers
      have nullNumbers : ¬ Value.HasNaN .null := Value.not_hasNaN_of_scalar rfl (by simp)
      have sorted := Value.sorted_of_entries? collection ordered
      refine exists_document_of_entries collection sorted places fun field member => ?_
      exact ih field member
        (Value.forall_entry Value.Ordered Value.ordered_null entriesOrdered field.1)
        (Value.forall_entry (¬ Value.HasNaN ·) nullNumbers entriesNumbers field.1)

theorem exists_mem_zip {items : List α} {places : List τ} (lengths : places.length = items.length)
    {item : α} (member : item ∈ items) : ∃ place, (item, place) ∈ items.zip places := by
  have first : item ∈ (items.zip places).map Prod.fst := by
    rw [List.map_fst_zip (by omega)]
    exact member
  obtain ⟨⟨_, place⟩, zipped, rfl⟩ := List.mem_map.mp first
  exact ⟨place, zipped⟩

/-- A value that is written fits its type, and no number inside is NaN. -/
def Conforms (value : Value) (writer : Ty → Encoded MsgPack) : Prop :=
  ∀ ty raw, writer ty = .ok raw → Fits value ty ∧ ¬ value.HasNaN

theorem conforms_document {value : Value} (typed : Conforms value (write value)) :
    Conforms value (document value) := by
  intro ty raw written
  by_cases untyped : ty = .dynamic
  · subst untyped
    rcases document_dynamic written with ⟨rfl, -⟩ | ⟨rfl, -⟩ | ⟨known, inner, done, -⟩
    · exact ⟨.null _, Value.not_hasNaN_of_scalar rfl (by simp)⟩
    · exact ⟨.unknown _ _, Value.not_hasNaN_of_scalar rfl (by simp)⟩
    · obtain ⟨fits, numbers⟩ := typed value.ty inner done
      exact ⟨.own known fits, numbers⟩
  · rw [document_of_typed value untyped] at written
    exact typed ty raw written

theorem conforms_items {value : Value} {items : List Value} (sequence : value.items? = some items)
    (inside : ∀ item ∈ items, Conforms item (document item)) : Conforms value (write value) := by
  intro ty raw written
  rw [write_of_items? ty sequence] at written
  obtain ⟨types, places, raws, results, rfl⟩ := writeItems_eq_ok.mp written
  have each := exists_results.mp ⟨raws, results⟩
  constructor
  · refine .items sequence places fun place member => ?_
    obtain ⟨result, done⟩ := each place member
    exact (inside _ (List.of_mem_zip member).1 _ _ done).1
  · refine Value.not_hasNaN_iff.mpr ⟨?_, fun item member => ?_⟩
    · rintro x rfl
      cases sequence
    · rw [Value.children_of_items? sequence] at member
      obtain ⟨type, zipped⟩ := exists_mem_zip (Ty.length_of_itemTypes? places) member
      obtain ⟨result, done⟩ := each _ zipped
      exact (inside _ member _ _ done).2

theorem conforms_entries {value : Value} {entries : List (String × Value)}
    (collection : value.entries? = some entries) (sorted : Dict.Sorted entries)
    (inside : ∀ entry ∈ entries, Conforms entry.2 (document entry.2)) :
    Conforms value (write value) := by
  intro ty raw written
  rw [write_of_entries? ty collection] at written
  obtain ⟨fields, places, raws, results, rfl⟩ :=
    (writeEntries_eq_ok document_null sorted).mp written
  have each := exists_named_results.mp ⟨raws, results⟩
  let Fine (value : Value) : Prop := Conforms value (document value)
  have fine (name : String) : Fine (Value.entry entries name) := by
    refine Value.forall_entry Fine ?_ inside name
    intro ty _ _
    exact ⟨.null ty, Value.not_hasNaN_of_scalar rfl (by simp)⟩
  constructor
  · refine .entries collection places fun field member => ?_
    obtain ⟨result, done⟩ := each field member
    exact (fine field.1 _ _ done).1
  · refine Value.not_hasNaN_iff.mpr ⟨?_, fun child member => ?_⟩
    · rintro x rfl
      cases collection
    · rw [Value.children_of_entries? collection] at member
      obtain ⟨entry, here, rfl⟩ := List.mem_map.mp member
      have named := Ty.subset_of_entryTypes? places (Dict.mem_keys_of_mem here)
      obtain ⟨field, inFields, same⟩ := List.mem_map.mp named
      obtain ⟨result, done⟩ := each field inFields
      rw [same, entry_of_mem sorted here] at done
      exact (inside entry here _ _ done).2

theorem conforms_write {value : Value} (ordered : value.Ordered) :
    Conforms value (write value) := by
  induction value with
  | null => exact fun ty raw _ => ⟨.null ty, Value.not_hasNaN_of_scalar rfl (by simp)⟩
  | unknown known =>
      exact fun ty raw _ => ⟨.unknown known ty, Value.not_hasNaN_of_scalar rfl (by simp)⟩
  | bool b =>
      intro ty raw written
      obtain ⟨rfl, -⟩ := write_bool_eq_ok.mp written
      exact ⟨.bool b, Value.not_hasNaN_of_scalar rfl (by simp)⟩
  | string text =>
      intro ty raw written
      obtain ⟨rfl, -⟩ := write_string_eq_ok.mp written
      exact ⟨.string text, Value.not_hasNaN_of_scalar rfl (by simp)⟩
  | number x =>
      intro ty raw written
      obtain ⟨rfl, notNaN, -⟩ := write_number_eq_ok.mp written
      refine ⟨.number x, Value.not_hasNaN_of_scalar rfl ?_⟩
      rintro y same
      cases same
      exact notNaN
  | list items ih | set items ih | tuple items ih =>
      have inside := (Value.ordered_iff.mp ordered).2
      exact conforms_items rfl fun item member =>
        conforms_document (ih item member (inside item member))
  | map entries ih | object entries ih =>
      obtain ⟨sorted, inside⟩ := Value.ordered_iff.mp ordered
      exact conforms_entries rfl sorted fun entry member =>
        conforms_document (ih entry member (inside _ (List.mem_map_of_mem member)))

/-- What can be written under a type. -/
theorem exists_document_iff {value : Value} {ty : Ty} (ordered : value.Ordered) :
    (∃ raw, document value ty = .ok raw) ↔ Fits value ty ∧ ¬ value.HasNaN := by
  constructor
  · rintro ⟨raw, written⟩
    exact conforms_document (conforms_write ordered) ty raw written
  · rintro ⟨fits, numbers⟩
    exact exists_document_of_fits fits ordered numbers

end Wire.Binary

end ScriptHost
