import ScriptHost.Proofs.Text.Utf8
import ScriptHost.Proofs.Value.Ty
import ScriptHost.Proofs.Wire.Path
import ScriptHost.Wire.Binary

set_option autoImplicit false

namespace ScriptHost

namespace Ty

/-- The types of so many items, if there are such sequences of the type. -/
def itemTypes? (count : Nat) : Ty → Option (List Ty)
  | list element | set element => some (List.replicate count element)
  | tuple elements => if count = elements.length then some elements else none
  | _ => none

/-- The entries that a collection with some names has under the type, if it may have them. -/
def entryTypes? (names : List String) : Ty → Option (List (String × Ty))
  | map element => some (names.map fun name => (name, element))
  | object attributes => if names ⊆ Dict.keys attributes then some attributes else none
  | _ => none

/-- Sequences are lists and sets, whose items have one type, and tuples of their own length. -/
theorem itemTypes?_eq_some {count : Nat} {ty : Ty} {types : List Ty} :
    ty.itemTypes? count = some types ↔
      (∃ element, (ty = list element ∨ ty = set element) ∧ types = List.replicate count element) ∨
        (ty = tuple types ∧ count = types.length) := by
  cases ty with
  | list element | set element => simp [itemTypes?, eq_comm]
  | tuple elements =>
      simp only [itemTypes?, Option.ite_none_right_eq_some, Option.some.injEq, tuple.injEq,
        reduceCtorEq, or_self, false_and, exists_false, false_or]
      constructor
      · rintro ⟨same, rfl⟩
        exact ⟨rfl, same⟩
      · rintro ⟨rfl, same⟩
        exact ⟨same, rfl⟩
  | _ => simp [itemTypes?]

/-- Collections are maps, whose entries have one type, and objects that declare all the names. -/
theorem entryTypes?_eq_some {names : List String} {ty : Ty} {fields : List (String × Ty)} :
    ty.entryTypes? names = some fields ↔
      (∃ element, ty = map element ∧ fields = names.map fun name => (name, element)) ∨
        (ty = object fields ∧ names ⊆ Dict.keys fields) := by
  cases ty with
  | map element => simp [entryTypes?, eq_comm]
  | object attributes =>
      simp only [entryTypes?, Option.ite_none_right_eq_some, Option.some.injEq, object.injEq,
        reduceCtorEq, false_and, exists_false, false_or]
      constructor
      · rintro ⟨within, rfl⟩
        exact ⟨rfl, within⟩
      · rintro ⟨rfl, within⟩
        exact ⟨within, rfl⟩
  | _ => simp [entryTypes?]

theorem mem_children_of_itemTypes? {count : Nat} {ty : Ty} {types : List Ty}
    (places : ty.itemTypes? count = some types) : ∀ t ∈ types, t ∈ ty.children := by
  intro t member
  obtain ⟨element, rfl | rfl, rfl⟩ | ⟨rfl, -⟩ := itemTypes?_eq_some.mp places
  · rw [List.eq_of_mem_replicate member]
    exact List.mem_singleton_self element
  · rw [List.eq_of_mem_replicate member]
    exact List.mem_singleton_self element
  · exact member

theorem mem_children_of_entryTypes? {names : List String} {ty : Ty} {fields : List (String × Ty)}
    (places : ty.entryTypes? names = some fields) : ∀ field ∈ fields, field.2 ∈ ty.children := by
  intro field member
  obtain ⟨element, rfl, rfl⟩ | ⟨rfl, -⟩ := entryTypes?_eq_some.mp places
  · obtain ⟨name, -, rfl⟩ := List.mem_map.mp member
    exact List.mem_singleton_self element
  · exact List.mem_map_of_mem member

theorem ordered_of_itemTypes? {count : Nat} {ty : Ty} {types : List Ty} (ordered : ty.Ordered)
    (places : ty.itemTypes? count = some types) : ∀ t ∈ types, t.Ordered := by
  intro t member
  exact (ordered_iff.mp ordered).2 t (mem_children_of_itemTypes? places t member)

theorem ordered_of_entryTypes? {names : List String} {ty : Ty} {fields : List (String × Ty)}
    (ordered : ty.Ordered) (places : ty.entryTypes? names = some fields) :
    ∀ field ∈ fields, field.2.Ordered := by
  intro field member
  exact (ordered_iff.mp ordered).2 field.2 (mem_children_of_entryTypes? places field member)

/-- All names of the entries are among those that the type gives them. -/
theorem subset_of_entryTypes? {names : List String} {ty : Ty} {fields : List (String × Ty)}
    (places : ty.entryTypes? names = some fields) : names ⊆ Dict.keys fields := by
  obtain ⟨element, rfl, rfl⟩ | ⟨rfl, within⟩ := entryTypes?_eq_some.mp places
  · rw [Dict.keys_map_pair]
    exact List.Subset.refl names
  · exact within

/-- The type gives the same entries to a collection that has them all. -/
theorem entryTypes?_keys {names : List String} {ty : Ty} {fields : List (String × Ty)}
    (places : ty.entryTypes? names = some fields) :
    ty.entryTypes? (Dict.keys fields) = some fields := by
  apply entryTypes?_eq_some.mpr
  obtain ⟨element, rfl, rfl⟩ | ⟨rfl, -⟩ := entryTypes?_eq_some.mp places
  · exact .inl ⟨element, rfl, by rw [Dict.keys_map_pair]⟩
  · exact .inr ⟨rfl, List.Subset.refl _⟩

theorem sorted_of_entryTypes? {names : List String} {ty : Ty} {fields : List (String × Ty)}
    (ordered : ty.Ordered) (ascend : names.Pairwise (· < ·))
    (places : ty.entryTypes? names = some fields) : Dict.Sorted fields := by
  obtain ⟨element, rfl, rfl⟩ | ⟨rfl, -⟩ := entryTypes?_eq_some.mp places
  · rwa [Dict.Sorted, Dict.keys_map_pair]
  · exact (ordered_iff.mp ordered).1

theorem ne_dynamic_of_itemTypes? {count : Nat} {ty : Ty} {types : List Ty}
    (places : ty.itemTypes? count = some types) : ty ≠ dynamic := by
  rintro rfl
  cases places

theorem ne_dynamic_of_entryTypes? {names : List String} {ty : Ty} {fields : List (String × Ty)}
    (places : ty.entryTypes? names = some fields) : ty ≠ dynamic := by
  rintro rfl
  cases places

theorem length_of_itemTypes? {count : Nat} {ty : Ty} {types : List Ty}
    (places : ty.itemTypes? count = some types) : types.length = count := by
  obtain ⟨element, -, rfl⟩ | ⟨-, same⟩ := itemTypes?_eq_some.mp places
  · exact List.length_replicate
  · exact same.symm

end Ty

namespace Value

/-- The sequence of some items that a type names. -/
def sequenceOf (ty : Ty) (items : List Value) : Value :=
  match ty with
  | .list _ => list items
  | .set _ => set items
  | _ => tuple items

/-- The collection of some entries that a type names. -/
def collectionOf (ty : Ty) (entries : List (String × Value)) : Value :=
  match ty with
  | .map _ => map entries
  | _ => object entries

/-- What a collection holds under a name; nothing is null. -/
def entry (entries : List (String × Value)) (name : String) : Value :=
  (Dict.get? entries name).getD null

/-- What holds of null and of all entries holds under every name. -/
theorem forall_entry (P : Value → Prop) {entries : List (String × Value)} (absent : P null)
    (present : ∀ entry ∈ entries, P entry.2) (name : String) : P (entry entries name) := by
  rw [entry]
  cases found : Dict.get? entries name with
  | none => exact absent
  | some value => exact present _ (Dict.mem_of_get? found)

end Value

namespace Wire

/-- Why a collection with some names cannot be written under a type that it does not fit. -/
def misfitCause (kind : String) (names : List String) (ty : Ty) : EncodeCause :=
  match ty with
  | .object attributes =>
      match names.find? fun name => !Dict.contains attributes name with
      | some extra => .extraAttribute extra ty
      | none => .mismatch kind ty
  | _ => .mismatch kind ty

section

variable {α β τ ε : Type}

theorem zipWith_replicate (f : α → τ → β) (items : List α) (place : τ) :
    List.zipWith f items (List.replicate items.length place) = items.map (f · place) := by
  induction items with
  | nil => rfl
  | cons item rest ih => simp [List.replicate_succ, ih]

theorem zipWith_apply (f : α → τ → β) (items : List α) (places : List τ) :
    List.zipWith (fun g place => g place) (items.map f) places = List.zipWith f items places := by
  rw [List.zipWith_map_left]

/-- There are as many results as places, if every place had an item. -/
theorem length_of_zipWith {f : α → τ → Except ε β} {items : List α} {places : List τ}
    {results : List β} (all : List.zipWith f items places = results.map .ok)
    (same : places.length = items.length) : results.length = items.length := by
  have lengths := congrArg List.length all
  rw [List.length_zipWith, List.length_map] at lengths
  omega

end

theorem entry_of_mem {entries : List (String × Value)} (sorted : Dict.Sorted entries)
    {entry : String × Value} (member : entry ∈ entries) :
    Value.entry entries entry.1 = entry.2 := by
  rw [Value.entry, (Dict.get?_eq_some_iff sorted.nodup).mpr member, Option.getD_some]

section

variable {δ : Type} {kind : String} {ty : Ty}

section

variable {array : List δ → δ} {document : Value → Ty → Encoded δ} {items : List Value}

theorem writeItems_of_places {types : List Ty}
    (places : ty.itemTypes? items.length = some types) :
    writeItems array kind (items.map document) ty =
      (collect 0 (List.zipWith document items types)).map array := by
  obtain ⟨element, rfl | rfl, rfl⟩ | ⟨rfl, same⟩ := Ty.itemTypes?_eq_some.mp places
  · rw [writeItems, zipWith_replicate, List.map_map]
    rfl
  · rw [writeItems, zipWith_replicate, List.map_map]
    rfl
  · rw [writeItems, List.length_map, if_pos same, zipWith_apply]

theorem writeItems_of_misfit (misfit : ty.itemTypes? items.length = none) :
    writeItems array kind (items.map document) ty = refuse (.mismatch kind ty) := by
  cases ty with
  | list element | set element => cases misfit
  | tuple elements =>
      rw [Ty.itemTypes?] at misfit
      split at misfit
      · cases misfit
      · rename_i other
        rw [writeItems, if_neg (by simpa using other)]
  | _ => rfl

/-- A sequence is written when every item is written at its place. -/
theorem writeItems_eq_ok {raw : δ} :
    writeItems array kind (items.map document) ty = .ok raw ↔
      ∃ types, ty.itemTypes? items.length = some types ∧
        ∃ raws : List δ, List.zipWith document items types = raws.map .ok ∧ array raws = raw := by
  cases places : ty.itemTypes? items.length with
  | none => simp [writeItems_of_misfit places, refuse]
  | some types => simp [writeItems_of_places places, map_eq_ok, collect_eq_ok]

end

section

variable {absent : δ} {object : List (String × δ) → δ} {document : Value → Ty → Encoded δ}
  {entries : List (String × Value)}

/-- Every attribute is written, as null where there is no entry. -/
theorem writeEntries_of_places {fields : List (String × Ty)}
    (null : ∀ ty, document .null ty = .ok absent) (sorted : Dict.Sorted entries)
    (places : ty.entryTypes? (Dict.keys entries) = some fields) :
    writeEntries absent object kind (entries.map fun entry => (entry.1, document entry.2)) ty =
      (collectNamed (fields.map fun field =>
        (field.1, document (Value.entry entries field.1) field.2))).map object := by
  obtain ⟨element, rfl, rfl⟩ | ⟨rfl, within⟩ := Ty.entryTypes?_eq_some.mp places
  · rw [writeEntries, Dict.keys, List.map_map, List.map_map, List.map_map]
    refine congrArg (fun outcomes => (collectNamed outcomes).map object) ?_
    refine List.map_congr_left fun entry member => ?_
    simp [entry_of_mem sorted member]
  · rw [writeEntries, Dict.keys_map, Dict.find?_missing_eq_none.mpr within]
    refine congrArg (fun outcomes => (collectNamed outcomes).map object) ?_
    refine List.map_congr_left fun field _ => congrArg (Prod.mk field.1) ?_
    rw [Dict.get?_map, Value.entry]
    cases Dict.get? entries field.1 with
    | none => exact (null field.2).symm
    | some value => rfl

theorem writeEntries_of_misfit (misfit : ty.entryTypes? (Dict.keys entries) = none) :
    writeEntries absent object kind (entries.map fun entry => (entry.1, document entry.2)) ty =
      refuse (misfitCause kind (Dict.keys entries) ty) := by
  cases ty with
  | map element => cases misfit
  | object attributes =>
      rw [Ty.entryTypes?] at misfit
      rw [writeEntries, Dict.keys_map, misfitCause]
      cases missing : (Dict.keys entries).find? fun key => !Dict.contains attributes key with
      | some extra => rfl
      | none => simp [Dict.find?_missing_eq_none.mp missing] at misfit
  | _ => rfl

/-- A collection is written when every entry of its type is written. -/
theorem writeEntries_eq_ok {raw : δ} (null : ∀ ty, document .null ty = .ok absent)
    (sorted : Dict.Sorted entries) :
    writeEntries absent object kind (entries.map fun entry => (entry.1, document entry.2)) ty =
        .ok raw ↔
      ∃ fields, ty.entryTypes? (Dict.keys entries) = some fields ∧
        ∃ raws : List (String × δ),
          (fields.map fun field => (field.1, document (Value.entry entries field.1) field.2)) =
              (raws.map fun entry => (entry.1, .ok entry.2)) ∧ object raws = raw := by
  cases places : ty.entryTypes? (Dict.keys entries) with
  | none => simp [writeEntries_of_misfit places, refuse]
  | some fields => simp [writeEntries_of_places null sorted places, map_eq_ok, collectNamed_eq_ok]

end

section

variable {read : δ → Ty → Decoded Value} {raws : List δ}

/-- An array is read by reading every item at its place. -/
theorem readArray_eq_collect {types : List Ty} (places : ty.itemTypes? raws.length = some types) :
    readArray ty (raws.map read) =
      (collect 0 (List.zipWith read raws types)).map (.sequenceOf ty) := by
  obtain ⟨element, rfl | rfl, rfl⟩ | ⟨rfl, same⟩ := Ty.itemTypes?_eq_some.mp places
  · rw [readArray, zipWith_replicate, List.map_map]
    rfl
  · rw [readArray, zipWith_replicate, List.map_map]
    rfl
  · rw [readArray, List.length_map, if_pos same, zipWith_apply]
    rfl

theorem readArray_of_misfit (misfit : ty.itemTypes? raws.length = none) :
    ∃ cause, readArray ty (raws.map read) = refuse cause := by
  cases ty with
  | list element | set element => cases misfit
  | tuple elements =>
      rw [Ty.itemTypes?] at misfit
      split at misfit
      · cases misfit
      · rename_i other
        rw [readArray, if_neg (by simpa using other)]
        exact ⟨_, rfl⟩
  | _ => exact ⟨_, rfl⟩

/-- An array is read exactly if every item is read at its place. -/
theorem readArray_eq_ok {value : Value} :
    readArray ty (raws.map read) = .ok value ↔
      ∃ types, ty.itemTypes? raws.length = some types ∧ ∃ values : List Value,
        List.zipWith read raws types = values.map .ok ∧ .sequenceOf ty values = value := by
  cases places : ty.itemTypes? raws.length with
  | none =>
      obtain ⟨cause, refused⟩ : ∃ cause, readArray ty (raws.map read) = refuse cause :=
        readArray_of_misfit places
      simp [refused, refuse]
  | some types => simp [readArray_eq_collect places, map_eq_ok, collect_eq_ok]

end

end

namespace Binary

theorem writers_eq (items : List Value) : writers items = items.map document :=
  eq_map_of_cons rfl (fun _ _ => rfl) items

theorem entryWriters_eq (entries : List (String × Value)) :
    entryWriters entries = entries.map fun entry => (entry.1, document entry.2) :=
  eq_map_of_cons rfl (fun _ _ => rfl) entries

theorem readers_eq (items : List MsgPack) : readers items = items.map read :=
  eq_map_of_cons rfl (fun _ _ => rfl) items

theorem pairReaders_eq (pairs : List (MsgPack × MsgPack)) :
    pairReaders pairs = pairs.map fun pair => (pair.1, read pair.2) :=
  eq_map_of_cons rfl (fun _ _ => rfl) pairs

theorem document_of_typed {ty : Ty} (value : Value) (typed : ty ≠ .dynamic) :
    document value ty = write value ty := by
  cases ty <;> first | rfl | exact absurd rfl typed

/-- Under a dynamic type a value of a known type comes with that type. -/
theorem document_dynamic_of_typed {value : Value} (typed : value.ty ≠ .dynamic) :
    document value .dynamic =
      (write value value.ty).map fun inner => .array [.binary value.ty.toBytes, inner] := by
  unfold document writeUnder
  split
  · split
    · exact absurd rfl typed
    · exact absurd rfl typed
    · rfl
  · rename_i other
    exact absurd rfl other

theorem document_null (ty : Ty) : document .null ty = .ok .nil := by
  cases ty <;> rfl

/-- Under a dynamic type a value is nothing, not known at all, or comes with its type. -/
theorem document_dynamic {value : Value} {raw : MsgPack}
    (written : document value .dynamic = .ok raw) :
    (value = .null ∧ raw = .nil) ∨ (value = .unknown .dynamic ∧ raw = unknownDocument) ∨
      (value.ty ≠ .dynamic ∧ ∃ inner, write value value.ty = .ok inner ∧
        raw = .array [.binary value.ty.toBytes, inner]) := by
  by_cases typed : value.ty = .dynamic
  · rcases Value.ty_eq_dynamic typed with rfl | rfl
    · exact .inl ⟨rfl, (Except.ok.inj written).symm⟩
    · exact .inr (.inl ⟨rfl, (Except.ok.inj written).symm⟩)
  · rw [document_dynamic_of_typed typed, map_eq_ok] at written
    obtain ⟨inner, done, same⟩ := written
    exact .inr (.inr ⟨typed, inner, done, same.symm⟩)

theorem write_bool_eq_ok {b : Bool} {ty : Ty} {raw : MsgPack} :
    write (.bool b) ty = .ok raw ↔ ty = .bool ∧ raw = .bool b := by
  rw [write]
  by_cases same : ty = .bool
  · simp [same, eq_comm]
  · simp [same, refuse]

theorem write_string_eq_ok {text : String} {ty : Ty} {raw : MsgPack} :
    write (.string text) ty = .ok raw ↔ ty = .string ∧ raw = .ofText text := by
  rw [write]
  by_cases same : ty = .string
  · simp [same, eq_comm]
  · simp [same, refuse]

/-- A number is written as the integer that it is equal to, if it is equal to one. -/
theorem write_number_eq_ok {x : Binary64} {ty : Ty} {raw : MsgPack} :
    write (.number x) ty = .ok raw ↔
      ty = .number ∧ x.isNaN = false ∧ raw = x.integral.elim (.double x) .integer := by
  rw [write, writeNumber]
  by_cases same : ty = .number
  · cases x.isNaN <;> cases x.integral <;> simp [same, refuse, eq_comm]
  · simp [same, refuse]

theorem write_of_items? {value : Value} {items : List Value} (ty : Ty)
    (sequence : value.items? = some items) :
    write value ty = writeItems .array value.kind (items.map document) ty := by
  rw [← writers_eq]
  cases value <;> cases sequence <;> rfl

theorem read_array {raws : List MsgPack} {ty : Ty} (typed : ty ≠ .dynamic) :
    read (.array raws) ty = readArray ty (raws.map read) := by
  rw [← readers_eq]
  cases ty <;> first | rfl | exact absurd rfl typed

theorem write_of_entries? {value : Value} {entries : List (String × Value)} (ty : Ty)
    (collection : value.entries? = some entries) :
    write value ty = writeEntries .nil mapDocument value.kind
      (entries.map fun entry => (entry.1, document entry.2)) ty := by
  rw [← entryWriters_eq]
  cases value <;> cases collection <;> rfl

/-- Entries whose names ascend are read in their order. -/
theorem readEntries_of_places (ty : Ty) (typeOf : String → Option Ty)
    {fields : List (String × Ty)} {raws : List (String × MsgPack)}
    {values : List (String × Value)} (before : List (String × Value))
    (sorted : Dict.Sorted (before ++ values))
    (types : fields.map (fun field => typeOf field.1) = fields.map fun field => some field.2)
    (names : Dict.keys raws = Dict.keys fields)
    (items : List.zipWith (fun raw field => (field.1, read raw.2 field.2)) raws fields =
      values.map fun entry => (entry.1, .ok entry.2)) :
    readEntries ty typeOf before (raws.map fun entry => (.ofText entry.1, read entry.2)) =
      .ok (before ++ values) := by
  induction raws generalizing fields values before with
  | nil =>
      cases fields with
      | nil =>
          cases values with
          | nil => rw [List.map_nil, readEntries, List.append_nil]
          | cons value rest => simp at items
      | cons field rest => simp at names
  | cons raw more ih =>
      obtain ⟨key, document⟩ := raw
      cases fields with
      | nil => simp at names
      | cons field fields =>
          obtain ⟨name, ty'⟩ := field
          cases values with
          | nil => simp at items
          | cons value values =>
              obtain ⟨name', value⟩ := value
              simp only [Dict.keys_cons, List.cons.injEq] at names
              simp only [List.map_cons, List.cons.injEq] at types
              simp only [List.zipWith_cons_cons, List.map_cons, List.cons.injEq,
                Prod.mk.injEq] at items
              obtain ⟨rfl, namesMore⟩ := names
              obtain ⟨type, typesMore⟩ := types
              obtain ⟨⟨rfl, result⟩, itemsMore⟩ := items
              have text : (MsgPack.ofText key).asText? = some key := ofUtf8?_utf8 key
              have last : Dict.insert key value before = before ++ [(key, value)] := by
                refine Dict.insert_of_greatest fun other member => ?_
                rw [Dict.Sorted, Dict.keys_append, List.pairwise_append] at sorted
                exact sorted.2.2 other member key (by simp)
              have behind := ih (before ++ [(key, value)]) (by simpa using sorted) typesMore
                namesMore itemsMore
              rw [List.map_cons, readEntries]
              simp only [text, type, result, under, last]
              rw [behind, List.append_assoc, List.singleton_append]

/-- An object has every attribute if it has the entries of its type. -/
theorem complete_of_keys {attributes : List (String × Ty)} {entries : List (String × Value)}
    (names : Dict.keys entries = Dict.keys attributes) :
    complete attributes entries = .ok (.object entries) := by
  rw [complete, Dict.find?_missing_eq_none.mpr (names ▸ List.Subset.refl _)]

/-- A map is read when every entry of its type is read. -/
theorem readMap_of_places {names : List String} {ty : Ty} {fields : List (String × Ty)}
    {raws : List (String × MsgPack)} {values : List (String × Value)} (ordered : ty.Ordered)
    (ascend : names.Pairwise (· < ·)) (places : ty.entryTypes? names = some fields)
    (same : Dict.keys raws = Dict.keys fields) (also : Dict.keys values = Dict.keys fields)
    (items : List.zipWith (fun raw field => (field.1, read raw.2 field.2)) raws fields =
      values.map fun entry => (entry.1, .ok entry.2)) :
    readMap ty (raws.map fun entry => (.ofText entry.1, read entry.2)) =
      .ok (.collectionOf ty values) := by
  have sorted : Dict.Sorted ([] ++ values) := by
    rw [List.nil_append, Dict.Sorted, also]
    exact Ty.sorted_of_entryTypes? ordered ascend places
  obtain ⟨element, rfl, rfl⟩ | ⟨rfl, -⟩ := Ty.entryTypes?_eq_some.mp places
  · have all := readEntries_of_places (.map element) (fun _ => some element) [] sorted
      (by simp) same items
    rw [readMap, all]
    rfl
  · have ascending : Dict.Sorted fields := (Ty.ordered_iff.mp ordered).1
    have types : fields.map (fun field => Dict.get? fields field.1) =
        fields.map fun field => some field.2 :=
      List.map_congr_left fun field member => (Dict.get?_eq_some_iff ascending.nodup).mpr member
    rw [readMap, readEntries_of_places _ _ [] sorted types same items]
    exact complete_of_keys also

theorem read_mapDocument (raws : List (String × MsgPack)) (ty : Ty) :
    read (mapDocument raws) ty =
      readMap ty (raws.map fun entry => (.ofText entry.1, read entry.2)) := by
  rw [mapDocument, read, pairReaders_eq, List.map_map]
  rfl

end Binary

end Wire

end ScriptHost
