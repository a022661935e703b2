import ScriptHost.Proofs.Wire.Places
import ScriptHost.Wire.Text

set_option autoImplicit false

namespace ScriptHost.Wire.Text

theorem writers_eq (items : List Value) : writers items = items.map document :=
  eq_map_of_cons rfl (fun _ _ => rfl) items

theorem entryWriters_eq (entries : List (String × Value)) :
    entryWriters entries = entries.map fun entry => (entry.1, document entry.2) :=
  eq_map_of_cons rfl (fun _ _ => rfl) entries

theorem readers_eq (items : List Json) : readers items = items.map read :=
  eq_map_of_cons rfl (fun _ _ => rfl) items

theorem fieldReaders_eq (fields : List (String × Json)) :
    fieldReaders fields = fields.map fun field => (field.1, read field.2) :=
  eq_map_of_cons rfl (fun _ _ => rfl) fields

theorem document_of_typed {ty : Ty} (value : Value) (typed : ty ≠ .dynamic) :
    document value ty = write value ty := by
  cases ty <;> first | rfl | exact absurd rfl typed

/-- Under a dynamic type a value other than null comes with its type. -/
theorem document_dynamic_of_ne_null {value : Value} (there : value ≠ .null) :
    document value .dynamic = (write value value.ty).map fun inner =>
      .object [("type", value.ty.toJson), ("value", inner)] := by
  cases value with
  | null => exact absurd rfl there
  | _ => rfl

theorem document_null (ty : Ty) : document .null ty = .ok .null := by
  cases ty <;> rfl

theorem write_of_items? {value : Value} {items : List Value} (ty : Ty)
    (sequence : value.items? = some items) :
    write value ty = writeItems .array value.kind (items.map document) ty := by
  rw [← writers_eq]
  cases value <;> cases sequence <;> rfl

theorem write_of_entries? {value : Value} {entries : List (String × Value)} (ty : Ty)
    (collection : value.entries? = some entries) :
    write value ty = writeEntries .null .object value.kind
      (entries.map fun entry => (entry.1, document entry.2)) ty := by
  rw [← entryWriters_eq]
  cases value <;> cases collection <;> rfl

theorem read_array {items : List Json} {ty : Ty} (typed : ty ≠ .dynamic) :
    read (.array items) ty = readArray ty (items.map read) := by
  rw [← readers_eq]
  cases ty <;> first | rfl | exact absurd rfl typed

theorem read_object {fields : List (String × Json)} {ty : Ty} (typed : ty ≠ .dynamic) :
    read (.object fields) ty = readObject ty (fieldReaders fields) := by
  cases ty <;> first | rfl | exact absurd rfl typed

/-- The results of the fields of an object at its places. -/
abbrev results {τ : Type} (reader : Json → τ → Decoded Value) (documents : List (String × Json))
    (fields : List (String × τ)) : List (String × Decoded Value) :=
  List.zipWith (fun document field => (field.1, reader document.2 field.2)) documents fields

/-- Results have the names of the fields, and each was read from a document under its field. -/
theorem of_results {τ : Type} {reader : Json → τ → Decoded Value} {documents : List (String × Json)}
    {fields : List (String × τ)} {values : List (String × Value)}
    (names : Dict.keys documents = Dict.keys fields)
    (all : results reader documents fields = values.map fun entry => (entry.1, .ok entry.2)) :
    Dict.keys values = Dict.keys fields ∧ ∀ entry ∈ values, ∃ document ∈ documents,
      ∃ field ∈ fields, field.1 = entry.1 ∧ reader document.2 field.2 = .ok entry.2 := by
  induction documents generalizing fields values with
  | nil =>
      cases fields with
      | nil => cases values <;> simp at all ⊢
      | cons field fields => simp at names
  | cons document documents ih =>
      cases fields with
      | nil => simp at names
      | cons field fields =>
          cases values with
          | nil => simp [results] at all
          | cons entry values =>
              simp only [Dict.keys_cons, List.cons.injEq] at names
              simp only [results, List.zipWith_cons_cons, List.map_cons, List.cons.injEq,
                Prod.mk.injEq] at all
              obtain ⟨sameNames, others⟩ := ih names.2 all.2
              constructor
              · rw [Dict.keys_cons, Dict.keys_cons, sameNames, all.1.1]
              · rw [List.forall_mem_cons]
                refine ⟨⟨document, by simp, field, by simp, all.1⟩, fun other member => ?_⟩
                obtain ⟨source, here, place, there, found⟩ := others other member
                exact ⟨source, List.mem_cons_of_mem _ here, place, List.mem_cons_of_mem _ there,
                  found⟩

/-- Attributes are read in their order, each from the field of its name. -/
theorem readAttributes_eq_ok {fields : List (String × (Ty → Decoded Value))}
    {documents : List (String × Json)} {attributes : List (String × Ty)}
    {values : List (String × Value)} (names : Dict.keys documents = Dict.keys attributes)
    (found : ∀ document ∈ documents, Dict.get? fields document.1 = some (read document.2)) :
    readAttributes fields attributes = .ok values ↔
      results read documents attributes = values.map fun entry => (entry.1, .ok entry.2) := by
  induction documents generalizing attributes values with
  | nil =>
      cases attributes with
      | nil => cases values <;> simp [readAttributes, results]
      | cons first rest => simp at names
  | cons document documents ih =>
      cases attributes with
      | nil => simp at names
      | cons first attributes =>
          obtain ⟨name, raw⟩ := document
          obtain ⟨other, declared⟩ := first
          simp only [Dict.keys_cons, List.cons.injEq] at names
          obtain ⟨rfl, names⟩ := names
          rw [List.forall_mem_cons] at found
          have rest (values : List (String × Value)) := @ih attributes values names found.2
          rw [readAttributes]
          simp only [found.1, results, List.zipWith_cons_cons]
          cases outcome : under (.name name) (read raw declared) with
          | error failure =>
              have failed : ∀ value, read raw declared ≠ .ok value := by
                intro value same
                rw [same] at outcome
                cases outcome
              cases values <;> simp [failed]
          | ok value =>
              rw [under_eq_ok] at outcome
              cases values with
              | nil => simp [map_eq_ok]
              | cons entry more =>
                  simp only [map_eq_ok, rest, List.map_cons, List.cons.injEq, outcome, Prod.ext_iff,
                    Except.ok.injEq]
                  constructor
                  · rintro ⟨_, others, ⟨same, also⟩, rfl⟩
                    exact ⟨⟨same, also⟩, others⟩
                  · rintro ⟨⟨same, also⟩, others⟩
                    exact ⟨more, others, ⟨same, also⟩, rfl⟩

/-- There is a field for every attribute that was read. -/
theorem subset_of_readAttributes {fields : List (String × (Ty → Decoded Value))}
    {attributes : List (String × Ty)} {values : List (String × Value)}
    (done : readAttributes fields attributes = .ok values) :
    Dict.keys attributes ⊆ Dict.keys fields := by
  induction attributes generalizing values with
  | nil => exact List.nil_subset _
  | cons first rest ih =>
      obtain ⟨name, declared⟩ := first
      rw [readAttributes] at done
      cases found : Dict.get? fields name with
      | none => simp [found, refuse] at done
      | some reader =>
          simp only [found] at done
          have here : name ∈ Dict.keys fields := Dict.mem_keys_of_mem (Dict.mem_of_get? found)
          cases outcome : under (.name name) (reader declared) with
          | error failure => simp [outcome] at done
          | ok value =>
              simp only [outcome, map_eq_ok] at done
              obtain ⟨others, later, -⟩ := done
              exact List.cons_subset.mpr ⟨here, ih later⟩

theorem results_replicate {documents : List (String × Json)} {element : Ty} :
    results read documents ((Dict.keys documents).map fun name => (name, element)) =
      documents.map fun document => (document.1, read document.2 element) := by
  induction documents with
  | nil => rfl
  | cons document rest ih =>
      simp only [results] at ih
      simp only [results, Dict.keys_cons, List.map_cons, List.zipWith_cons_cons, ih]

/-- An object is read exactly if its names are those of its type, and every field is read at its
place. -/
theorem readObject_eq_ok {documents : List (String × Json)} {ty : Ty} {value : Value}
    (ordered : ty.Ordered) (sorted : Dict.Sorted documents) :
    readObject ty (fieldReaders documents) = .ok value ↔
      ∃ fields, ty.entryTypes? (Dict.keys documents) = some fields ∧
        Dict.keys documents = Dict.keys fields ∧ ∃ values : List (String × Value),
          results read documents fields = (values.map fun entry => (entry.1, .ok entry.2)) ∧
            .collectionOf ty values = value := by
  rw [fieldReaders_eq]
  cases ty with
  | map element =>
      have names : Dict.keys documents =
          Dict.keys ((Dict.keys documents).map fun name => (name, element)) :=
        (Dict.keys_map_pair _ _).symm
      simp only [readObject, List.map_map, Function.comp_def, map_eq_ok, collectNamed_eq_ok,
        Ty.entryTypes?, Option.some.injEq, exists_eq_left', results_replicate, names.symm,
        true_and, Value.collectionOf]
  | object attributes =>
      have ascending : Dict.Sorted attributes := (Ty.ordered_iff.mp ordered).1
      have same : Dict.keys (documents.map fun field => (field.1, read field.2)) =
          Dict.keys documents := Dict.keys_map _ documents
      have found : ∀ document ∈ documents,
          Dict.get? (documents.map fun field => (field.1, read field.2)) document.1 =
            some (read document.2) := by
        intro document member
        rw [Dict.get?_map, (Dict.get?_eq_some_iff sorted.nodup).mpr member]
        rfl
      rw [readObject, same, Ty.entryTypes?]
      by_cases within : Dict.keys documents ⊆ Dict.keys attributes
      · simp only [Dict.find?_missing_eq_none.mpr within, within, if_true, map_eq_ok,
          Option.some.injEq, exists_eq_left', Value.collectionOf]
        constructor
        · rintro ⟨values, done, made⟩
          have beyond := subset_of_readAttributes done
          rw [same] at beyond
          have names : Dict.keys documents = Dict.keys attributes :=
            Dict.keys_eq_of_mem sorted ascending fun name => ⟨fun here => within here,
              fun here => beyond here⟩
          exact ⟨names, values, (readAttributes_eq_ok names found).mp done, made⟩
        · rintro ⟨names, values, done, made⟩
          exact ⟨values, (readAttributes_eq_ok names found).mpr done, made⟩
      · obtain ⟨extra, missing⟩ := Option.ne_none_iff_exists'.mp
          (mt Dict.find?_missing_eq_none.mp within)
        simp [missing, within, refuse]
  | _ => simp [readObject, Ty.entryTypes?, refuse]

end ScriptHost.Wire.Text
