import ScriptHost.Proofs.Ty.Join
import ScriptHost.Proofs.Wire.Inferred
import ScriptHost.Proofs.Wire.Limits
import ScriptHost.Proofs.Wire.Sound

set_option autoImplicit false

/- What one trip over the wire leaves to the next. A value takes the shape of a type above its own,
and then its own type has grown, but not past that type: so a value in the shape of its own type
keeps its type, and it is written as before. Sets whose items have no common type are left out,
since they take the type of their neighbours. -/
namespace ScriptHost

namespace Value

variable {value : Value} {items : List Value} {entries : List (String × Value)} {ty : Ty}

theorem reshaped_of_items? {types : List Ty} (sequence : value.items? = some items)
    (places : ty.itemTypes? items.length = some types) :
    value.reshaped ty = sequenceOf ty (List.zipWith reshaped items types) := by
  rw [reshaped_of_typed _ (Ty.ne_dynamic_of_itemTypes? places), ← reshapeItems_of_places places]
  cases value <;> cases sequence <;> rfl

theorem reshaped_of_entries? {fields : List (String × Ty)} (sorted : Dict.Sorted entries)
    (collection : value.entries? = some entries)
    (places : ty.entryTypes? (Dict.keys entries) = some fields) :
    value.reshaped ty = collectionOf ty (fields.map fun field =>
      (field.1, reshaped (entry entries field.1) field.2)) := by
  rw [reshaped_of_typed _ (Ty.ne_dynamic_of_entryTypes? places),
    ← reshapeEntries_of_places sorted places]
  cases value <;> cases collection <;> rfl

end Value

namespace Wire.Binary

variable {value : Value} {items : List Value} {entries : List (String × Value)} {ty element : Ty}

/-- A value in the shape of a type has a type between its former one and that type, and under that
type it is written as before. -/
structure Settles (value : Value) (ty : Ty) : Prop where
  above : value.ty ≤ (value.reshaped ty).ty
  below : (value.reshaped ty).ty ≤ ty
  written : document (value.reshaped ty) ty = document value ty

theorem settles_null (ty : Ty) : Settles .null ty := by
  constructor
  · exact Ty.dynamic_le _
  · rw [Value.reshaped_null]
    exact Ty.dynamic_le ty
  · rw [Value.reshaped_null]

/-- Below the dynamic type are null and what is not known at all. -/
theorem settles_dynamic (below : value.ty ≤ .dynamic) : Settles value .dynamic := by
  have untyped := Ty.le_antisymm below (Ty.dynamic_le _)
  rcases Value.ty_eq_dynamic untyped with rfl | rfl
  · exact settles_null .dynamic
  · exact ⟨Ty.le_refl _, Ty.le_refl _, rfl⟩

theorem zipWith_document {types : List Ty}
    (inside : ∀ place ∈ items.zip types, Settles place.1 place.2) :
    List.zipWith document (List.zipWith Value.reshaped items types) types =
      List.zipWith document items types := by
  induction items generalizing types with
  | nil => rfl
  | cons item items ih =>
      cases types with
      | nil => rfl
      | cons type types =>
          rw [List.zip_cons_cons, List.forall_mem_cons] at inside
          simp only [List.zipWith_cons_cons]
          rw [inside.1.written, ih inside.2]

theorem document_reshaped_items {types : List Ty} (sequence : value.items? = some items)
    (places : ty.itemTypes? items.length = some types)
    (inside : ∀ place ∈ items.zip types, Settles place.1 place.2) :
    document (value.reshaped ty) ty = document value ty := by
  have typed := Ty.ne_dynamic_of_itemTypes? places
  have count : (List.zipWith Value.reshaped items types).length = items.length := by
    rw [List.length_zipWith, Ty.length_of_itemTypes? places, Nat.min_self]
  have backPlaces :
      ty.itemTypes? (List.zipWith Value.reshaped items types).length = some types := by
    rw [count, places]
  rw [Value.reshaped_of_items? sequence places, document_of_typed _ typed,
    document_of_typed _ typed, write_of_items? ty (items?_sequenceOf ty _),
    write_of_items? ty sequence,
    writeItems_of_places backPlaces, writeItems_of_places places, zipWith_document inside]

theorem document_reshaped_entries {fields : List (String × Ty)} (sorted : Dict.Sorted entries)
    (collection : value.entries? = some entries)
    (places : ty.entryTypes? (Dict.keys entries) = some fields)
    (names : Dict.keys entries = Dict.keys fields)
    (inside : ∀ field ∈ fields, Settles (Value.entry entries field.1) field.2) :
    document (value.reshaped ty) ty = document value ty := by
  have typed := Ty.ne_dynamic_of_entryTypes? places
  let backs := fields.map fun field =>
    (field.1, (Value.entry entries field.1).reshaped field.2)
  have backNames : Dict.keys backs = Dict.keys entries := (Dict.keys_map _ fields).trans names.symm
  have backSorted : Dict.Sorted backs := by
    rw [Dict.Sorted, backNames]
    exact sorted
  have same : (fields.map fun field => (field.1, document (Value.entry backs field.1) field.2)) =
      fields.map fun field => (field.1, document (Value.entry entries field.1) field.2) := by
    refine List.map_congr_left fun field member => ?_
    have back := entry_of_mem backSorted (List.mem_map_of_mem member)
    rw [back, (inside field member).written]
  rw [Value.reshaped_of_entries? sorted collection places, document_of_typed _ typed,
    document_of_typed _ typed, write_of_entries? ty (entries?_collectionOf ty _),
    write_of_entries? ty collection,
    writeEntries_of_places document_null backSorted (by rw [backNames, places]),
    writeEntries_of_places document_null sorted places, same]

/-- The common type of some values grows with them, up to the type that they take the shape of. -/
theorem common_reshaped {c : Ty} (shared : Ty.common (items.map Value.ty) = some c)
    (inside : ∀ item ∈ items, Settles item element) :
    ∃ d, Ty.common ((items.map (Value.reshaped · element)).map Value.ty) = some d ∧
      c ≤ d ∧ d ≤ element := by
  rw [List.map_map]
  apply Ty.common_between shared
  · exact List.forall_mem_map.mpr fun item member =>
      ⟨_, List.mem_map_of_mem member, (inside item member).above⟩
  · exact List.forall_mem_map.mpr fun item member => (inside item member).below

theorem below_of_settles {types : List Ty} (each : List.Forall₂ Settles items types) :
    List.Forall₂ (fun back type => back.ty ≤ type) (List.zipWith Value.reshaped items types)
      types := by
  induction each with
  | nil => exact .nil
  | cons head _ ih => exact .cons head.below ih

theorem settles_tuple {types : List Ty} (sequence : value.items? = some items)
    (arity : items.length = types.length) (typed : value.ty = .tuple (items.map Value.ty))
    (inside : ∀ place ∈ items.zip types, Settles place.1 place.2) :
    Settles value (.tuple types) := by
  have places : (Ty.tuple types).itemTypes? items.length = some types := by
    rw [Ty.itemTypes?, if_pos arity]
  have backTyped : (value.reshaped (.tuple types)).ty =
      .tuple ((List.zipWith Value.reshaped items types).map Value.ty) := by
    rw [Value.reshaped_of_items? sequence places]
    exact Value.ty_tuple _
  constructor
  · rw [backTyped, typed]
    refine Ty.tuple_le.mpr ⟨_, rfl, ?_⟩
    rw [List.forall₂_map_left_iff, List.forall₂_map_right_iff]
    exact forall₂_zipWith arity fun place member => (inside place member).above
  · rw [backTyped]
    refine Ty.tuple_le.mpr ⟨types, rfl, ?_⟩
    rw [List.forall₂_map_left_iff]
    exact below_of_settles (List.forall₂_iff_zip.mpr ⟨arity, fun member => inside _ member⟩)
  · exact document_reshaped_items sequence places inside

theorem settles_replicate (inside : ∀ item ∈ items, Settles item element) :
    ∀ place ∈ items.zip (List.replicate items.length element), Settles place.1 place.2 := by
  intro place member
  obtain ⟨inItems, inTypes⟩ := List.of_mem_zip member
  rw [List.eq_of_mem_replicate inTypes]
  exact inside place.1 inItems

theorem settles_list {c : Ty} (shared : Ty.common (items.map Value.ty) = some c)
    (inside : ∀ item ∈ items, Settles item element) : Settles (.list items) (.list element) := by
  obtain ⟨d, again, above, below⟩ := common_reshaped shared inside
  have backTyped : ((Value.list items).reshaped (.list element)).ty = .list d := by
    rw [Value.reshaped_of_items? rfl rfl, zipWith_replicate, Value.sequenceOf, Value.ty_list, again]
  constructor
  · rw [backTyped, Value.ty_list, shared]
    exact Ty.list_le.mpr ⟨d, rfl, above⟩
  · rw [backTyped]
    exact Ty.list_le.mpr ⟨element, rfl, below⟩
  · exact document_reshaped_items rfl rfl (settles_replicate inside)

theorem settles_set {c : Ty} (shared : Ty.common (items.map Value.ty) = some c)
    (inside : ∀ item ∈ items, Settles item element) : Settles (.set items) (.set element) := by
  obtain ⟨d, again, above, below⟩ := common_reshaped shared inside
  have backTyped : ((Value.set items).reshaped (.set element)).ty = .set d := by
    rw [Value.reshaped_of_items? rfl rfl, zipWith_replicate, Value.sequenceOf, Value.ty_set, again,
      Option.getD_some]
  constructor
  · rw [backTyped, Value.ty_set, shared, Option.getD_some]
    exact Ty.set_le.mpr ⟨d, rfl, above⟩
  · rw [backTyped]
    exact Ty.set_le.mpr ⟨element, rfl, below⟩
  · exact document_reshaped_items rfl rfl (settles_replicate inside)

theorem settles_map {c : Ty} (sorted : Dict.Sorted entries)
    (shared : Ty.common (entries.map fun entry => entry.2.ty) = some c)
    (inside : ∀ entry ∈ entries, Settles entry.2 element) :
    Settles (.map entries) (.map element) := by
  have values : Ty.common ((entries.map Prod.snd).map Value.ty) = some c := by
    rw [List.map_map]
    exact shared
  obtain ⟨d, again, above, below⟩ := common_reshaped values (List.forall_mem_map.mpr inside)
  have shape : (Value.map entries).reshaped (.map element) =
      .map (entries.map fun entry => (entry.1, entry.2.reshaped element)) := by
    rw [Value.reshaped_of_entries? sorted rfl rfl, Dict.keys, List.map_map, List.map_map,
      Value.collectionOf]
    refine congrArg Value.map (List.map_congr_left fun entry member => ?_)
    simp [entry_of_mem sorted member]
  have backTyped : ((Value.map entries).reshaped (.map element)).ty = .map d := by
    rw [List.map_map, List.map_map] at again
    rw [shape, Value.ty_map, List.map_map]
    simp only [Function.comp_def] at again ⊢
    rw [again]
  constructor
  · rw [backTyped, Value.ty_map, shared]
    exact Ty.map_le.mpr ⟨d, rfl, above⟩
  · rw [backTyped]
    exact Ty.map_le.mpr ⟨element, rfl, below⟩
  · apply document_reshaped_entries sorted rfl rfl (Dict.keys_map_pair _ _).symm
    intro field member
    obtain ⟨name, -, rfl⟩ := List.mem_map.mp member
    exact Value.forall_entry (Settles · element) (settles_null element) inside name

theorem settles_object {fields : List (String × Ty)} (sorted : Dict.Sorted entries)
    (collection : value.entries? = some entries)
    (typed : value.ty = .object (entries.map fun entry => (entry.1, entry.2.ty)))
    (names : Dict.keys entries = Dict.keys fields)
    (inside : ∀ field ∈ fields, Settles (Value.entry entries field.1) field.2) :
    Settles value (.object fields) := by
  have places : (Ty.object fields).entryTypes? (Dict.keys entries) = some fields := by
    rw [Ty.entryTypes?, names, if_pos (List.Subset.refl _)]
  have backTyped : (value.reshaped (.object fields)).ty = .object (fields.map fun field =>
      (field.1, ((Value.entry entries field.1).reshaped field.2).ty)) := by
    rw [Value.reshaped_of_entries? sorted collection places, Value.collectionOf, Value.ty_object,
      List.map_map]
    · rfl
    · simp
  constructor
  · rw [backTyped, typed]
    refine Ty.object_le.mpr ⟨_, rfl, ?_⟩
    rw [List.forall₂_map_left_iff, List.forall₂_map_right_iff]
    refine forall₂_of_names names fun entry member field there same => ⟨same, ?_⟩
    have settles := inside field there
    rw [← same, entry_of_mem sorted member] at settles ⊢
    exact settles.above
  · rw [backTyped]
    refine Ty.object_le.mpr ⟨fields, rfl, ?_⟩
    rw [List.forall₂_map_left_iff, List.forall₂_same]
    exact fun field member => ⟨rfl, (inside field member).below⟩
  · exact document_reshaped_entries sorted collection places names inside

/-- A value takes the shape of whatever type is above its own. -/
def Settled (value : Value) : Prop := ∀ ty, value.ty ≤ ty → Settles value ty

theorem settled_unknown (known : Ty) : Settled (.unknown known) := by
  intro ty below
  by_cases untyped : ty = .dynamic
  · subst untyped
    exact settles_dynamic below
  · have shape : (Value.unknown known).reshaped ty = .unknown ty :=
      Value.reshaped_of_typed _ untyped
    refine ⟨?_, ?_, ?_⟩
    · rw [shape]
      exact below
    · rw [shape]
      exact Ty.le_refl ty
    · rw [shape, document_of_typed _ untyped, document_of_typed _ untyped]
      rfl

theorem settled_tuple (sequence : value.items? = some items)
    (typed : value.ty = .tuple (items.map Value.ty)) (inside : ∀ item ∈ items, Settled item) :
    Settled value := by
  intro ty below
  rw [typed] at below
  obtain ⟨types, rfl, each⟩ := Ty.tuple_le.mp below
  rw [List.forall₂_map_left_iff, List.forall₂_iff_zip] at each
  obtain ⟨arity, each⟩ := each
  refine settles_tuple sequence arity typed fun place member => ?_
  exact inside place.1 (List.of_mem_zip member).1 place.2 (each member)

theorem settled_list (inside : ∀ item ∈ items, Settled item) : Settled (.list items) := by
  cases shared : Ty.common (items.map Value.ty) with
  | none => exact settled_tuple rfl (by rw [Value.ty_list, shared]) inside
  | some c =>
      intro ty below
      rw [Value.ty_list, shared] at below
      obtain ⟨element, rfl, above⟩ := Ty.list_le.mp below
      have each := items_le_of_common shared above
      exact settles_list shared fun item member => inside item member element (each item member)

theorem settled_set (agree : Ty.common (items.map Value.ty) ≠ none)
    (inside : ∀ item ∈ items, Settled item) : Settled (.set items) := by
  obtain ⟨c, shared⟩ := Option.ne_none_iff_exists'.mp agree
  intro ty below
  rw [Value.ty_set, shared, Option.getD_some] at below
  obtain ⟨element, rfl, above⟩ := Ty.set_le.mp below
  have each := items_le_of_common shared above
  exact settles_set shared fun item member => inside item member element (each item member)

theorem settled_object (sorted : Dict.Sorted entries) (collection : value.entries? = some entries)
    (typed : value.ty = .object (entries.map fun entry => (entry.1, entry.2.ty)))
    (inside : ∀ entry ∈ entries, Settled entry.2) : Settled value := by
  intro ty below
  rw [typed] at below
  obtain ⟨fields, rfl, -⟩ := Ty.object_le.mp below
  have names := keys_of_object_le below
  obtain ⟨_, places, each⟩ := places_of_object_le sorted below
  rw [Ty.entryTypes?, names, if_pos (List.Subset.refl _)] at places
  cases places
  refine settles_object sorted collection typed names fun field member => ?_
  have settled : Settled (Value.entry entries field.1) :=
    Value.forall_entry Settled (fun ty _ => settles_null ty) inside field.1
  exact settled field.2 (each field member)

theorem settled_map (sorted : Dict.Sorted entries) (inside : ∀ entry ∈ entries, Settled entry.2) :
    Settled (.map entries) := by
  cases shared : Ty.common (entries.map fun entry => entry.2.ty) with
  | none => exact settled_object sorted rfl (by rw [Value.ty_map, shared]) inside
  | some c =>
      intro ty below
      rw [Value.ty_map, shared] at below
      obtain ⟨element, rfl, above⟩ := Ty.map_le.mp below
      refine settles_map sorted shared fun entry member => ?_
      have under := Ty.le_common shared (List.mem_map_of_mem member)
      exact inside entry member element (Ty.le_trans under above)

theorem settled {value : Value} (ordered : value.Ordered) (agree : value.SetsAgree) :
    Settled value := by
  induction value using Value.childrenInduction with
  | step value ih =>
      obtain ⟨named, children⟩ := Value.ordered_iff.mp ordered
      obtain ⟨agrees, agreeInside⟩ := Value.setsAgree_iff.mp agree
      have inside : ∀ child ∈ value.children, Settled child :=
        fun child member => ih child member (children child member) (agreeInside child member)
      cases value with
      | null => exact fun ty _ => settles_null ty
      | unknown known => exact settled_unknown known
      | bool b =>
          intro ty below
          obtain rfl := Ty.bool_le.mp below
          exact ⟨Ty.le_refl _, Ty.le_refl _, rfl⟩
      | number x =>
          intro ty below
          obtain rfl := Ty.number_le.mp below
          exact ⟨Ty.le_refl _, Ty.le_refl _, writeNumber_unsignZero x⟩
      | string text =>
          intro ty below
          obtain rfl := Ty.string_le.mp below
          exact ⟨Ty.le_refl _, Ty.le_refl _, rfl⟩
      | list items => exact settled_list inside
      | set items => exact settled_set agrees inside
      | tuple items => exact settled_tuple rfl (Value.ty_tuple items) inside
      | map entries => exact settled_map named (List.forall_mem_map.mp inside)
      | object entries =>
          exact settled_object named rfl (Value.ty_object entries) (List.forall_mem_map.mp inside)

/-- Where any type may stand, a value comes back with its type and is written as before. -/
theorem reshaped_own {value : Value} (settled : Settled value) :
    (value.reshaped .dynamic).ty = value.ty ∧
      document (value.reshaped .dynamic) .dynamic = document value .dynamic := by
  by_cases untyped : value.ty = .dynamic
  · have settles := settled .dynamic (untyped ▸ Ty.le_refl _)
    exact ⟨Ty.le_antisymm (untyped ▸ settles.below) settles.above, settles.written⟩
  · obtain ⟨above, below, written⟩ := settled value.ty (Ty.le_refl _)
    have same : value.reshaped .dynamic = value.reshaped value.ty := by
      rw [Value.reshaped_dynamic untyped, Value.reshaped_of_typed _ untyped]
    have typed := Ty.le_antisymm below above
    have backUntyped : (value.reshaped value.ty).ty ≠ .dynamic := by
      rw [typed]
      exact untyped
    rw [document_of_typed _ untyped, document_of_typed _ untyped] at written
    rw [same]
    refine ⟨typed, ?_⟩
    rw [document_dynamic_of_typed backUntyped, document_dynamic_of_typed untyped, typed, written]

/-- A number that is written otherwise when it has been read. -/
def negativeZero : MsgPack := .double ⟨0x8000000000000000⟩

/-- A text whose bytes are those of a number, of a text of letters and of the front of another. -/
def outerText (first second : Nat) : String :=
  "\u02c0\x00\x00\x00\x00\x00\x00\x00" ++ ("\u06c0\x00\x00\x00" ++ (letters first ++
    ("\u06c0\x00\x01\x00" ++ letters second)))

/-- A text that begins with letters, and whose other bytes are those of three items. -/
def innerText (count : Nat) : String :=
  letters count ++ ("\x00" ++ ("\u0640" ++ (letters 128 ++ ("\u064e" ++ letters 142))))

open MsgPack in
/-- The bytes of a number and the heads of texts are texts themselves. -/
theorem utf8_heads :
    utf8 "\u02c0\x00\x00\x00\x00\x00\x00\x00" = negativeZero.write ∧
      utf8 "\u06c0\x00\x00\x00" = stringHead 0x80000000 ∧
      utf8 "\u06c0\x00\x01\x00" = stringHead 0x80000100 ∧
      utf8 "\x00" = writeInteger 0 ∧
      utf8 "\u0640" = stringHead 128 ∧ utf8 "\u064e" = stringHead 142 := by decide

theorem length_outerText (first second : Nat) :
    (utf8 (outerText first second)).length = first + second + 19 := by
  obtain ⟨number, text, more, -⟩ := utf8_heads
  have eight : negativeZero.write.length = 9 := rfl
  have half : (MsgPack.stringHead 0x80000000).length = 5 := rfl
  have above : (MsgPack.stringHead 0x80000100).length = 5 := rfl
  simp only [outerText, utf8_append, number, text, more, List.length_append, length_utf8_letters,
    eight, half, above]
  omega

theorem length_innerText (count : Nat) : (utf8 (innerText count)).length = count + 275 := by
  obtain ⟨-, -, -, zero, third, fourth⟩ := utf8_heads
  have byte : (MsgPack.writeInteger 0).length = 1 := rfl
  have short : (MsgPack.stringHead 128).length = 2 := rfl
  have longer : (MsgPack.stringHead 142).length = 2 := rfl
  simp only [innerText, utf8_append, zero, third, fourth, List.length_append, length_utf8_letters,
    byte, short, longer]

/-- A text, a number and two texts. -/
def quadruple (first : String) (number : Binary64) (second third : String) : Value :=
  .tuple [.string first, .number number, .string second, .string third]

/-- The document of a text, a number and two texts with their types. -/
def quadrupleDocument (first : String) (number : MsgPack) (second third : String) : MsgPack :=
  .array [.binary (Ty.tuple [.string, .number, .string, .string]).toBytes,
    .array [.ofText first, number, .ofText second, .ofText third]]

section

variable (first second third : String)

theorem ordered_quadruple (x : Binary64) : (quadruple first x second third).Ordered := by
  intro part member
  fin_cases member <;> trivial

theorem setsAgree_quadruple (x : Binary64) : (quadruple first x second third).SetsAgree := by
  intro part member
  fin_cases member <;> trivial

theorem document_quadruple {x : Binary64} {number : MsgPack}
    (written : writeNumber x = .ok number) :
    document (quadruple first x second third) .dynamic =
      .ok (quadrupleDocument first number second third) := by
  have typed : (quadruple first x second third).ty =
      .tuple [.string, .number, .string, .string] := by
    rw [quadruple, Value.ty_tuple]
    rfl
  have text (t : String) : writeUnder (.string t) (write (.string t)) .string =
      .ok (.ofText t) := by rfl
  have middle : writeUnder (.number x) (write (.number x)) .number = .ok number := by
    rw [← written]
    rfl
  rw [document_dynamic_of_typed (by simp [typed]), typed, quadruple, write]
  simp only [writers, writeItems, List.length_cons, List.length_nil, if_true, List.zipWith, collect,
    under, text, middle, Except.map]
  rw [quadrupleDocument]

theorem read_quadruple {x : Binary64} {number : MsgPack}
    (known : read number .number = .ok (.number x)) :
    read (quadrupleDocument first number second third) .dynamic =
      .ok (quadruple first x second third) := by
  have type : declaredType (.binary (Ty.tuple [.string, .number, .string, .string]).toBytes) =
      .ok (.tuple [.string, .number, .string, .string]) := by rfl
  have text (t : String) : read (.ofText t) .string = .ok (.string t) := by
    simp [read, readScalar, MsgPack.ofText, MsgPack.asText?, ofUtf8?_utf8]
  rw [quadrupleDocument, read, type]
  show readArray (.tuple [.string, .number, .string, .string]) [read (.ofText first), read number,
    read (.ofText second), read (.ofText third)] = _
  simp only [readArray, List.length_cons, List.length_nil, if_true, List.zipWith, collect, under,
    text, known, Except.map]
  rw [quadruple]

/-- Of two documents that differ in the number, the bytes of the number differ. -/
theorem write_number_of_quadruple {number other : MsgPack}
    (same : (quadrupleDocument first number second third).write =
      (quadrupleDocument first other second third).write) : number.write = other.write := by
  simpa [quadrupleDocument, MsgPack.write, MsgPack.writeItems] using same

theorem reads_quadruple {number : MsgPack} (sized : ∀ text ∈ [first, second, third],
      (utf8 text).length < MsgPack.lengthLimit) (reads : MsgPack.Reads number MsgPack.read) :
    MsgPack.Reads (quadrupleDocument first number second third) MsgPack.read := by
  simp only [List.forall_mem_cons] at sized
  obtain ⟨firstFits, secondFits, thirdFits, -⟩ := sized
  have type : MsgPack.Reads (.binary (Ty.tuple [.string, .number, .string, .string]).toBytes)
      MsgPack.read := MsgPack.reads_binary (by decide)
  refine MsgPack.reads_array (show 2 < MsgPack.lengthLimit by decide)
    (List.forall_mem_cons.mpr ⟨type, List.forall_mem_singleton.mpr ?_⟩)
  refine MsgPack.reads_array (show 4 < MsgPack.lengthLimit by decide) ?_
  simp only [List.forall_mem_cons]
  exact ⟨MsgPack.reads_string firstFits, reads, MsgPack.reads_string secondFits,
    MsgPack.reads_string thirdFits, List.forall_mem_nil _⟩

end

/-- A text as long as the limit and three items behind it are written as four other items. -/
theorem write_outerText {first second : Nat} (half : first = 0x80000000)
    (rest : second = 0x7fffffed) :
    (quadrupleDocument (outerText first second) (.integer 0) (letters 128) (letters 142)).write =
      (quadrupleDocument "" negativeZero (letters first) (innerText second)).write := by
  obtain ⟨number, text, more, zero, third, fourth⟩ := utf8_heads
  have long : (utf8 (outerText first second)).length = MsgPack.lengthLimit := by
    rw [length_outerText, half, rest]
    rfl
  have announced : (MsgPack.ofText (outerText first second)).write =
      (MsgPack.ofText "").write ++ utf8 (outerText first second) :=
    MsgPack.write_string_of_length long
  have written {t : String} {n : Nat} (length : (utf8 t).length = n)
      (short : n < MsgPack.lengthLimit) :
      (MsgPack.ofText t).write = MsgPack.stringHead n ++ utf8 t := by
    rw [MsgPack.ofText, MsgPack.write, length, MsgPack.lengthField_of_lt short]
  have firstText := written (t := letters first) (length_utf8_letters _) (by rw [half]; decide)
  have thirdText := written (t := letters 128) (length_utf8_letters _) (by decide)
  have fourthText := written (t := letters 142) (length_utf8_letters _) (by decide)
  have inner : (MsgPack.ofText (innerText second)).write =
      MsgPack.stringHead 0x80000100 ++ utf8 (innerText second) := by
    apply written
    · rw [length_innerText, rest]
    · decide
  simp only [quadrupleDocument, MsgPack.write, MsgPack.writeItems, announced, inner, firstText,
    thirdText, fourthText]
  simp only [outerText, innerText, utf8_append, number, text, more, zero, third, fourth, half,
    List.append_assoc, List.length_cons, List.length_nil]

theorem writeNumber_zero {x : Binary64} (finite : x.isFinite = true) (zero : x.magnitude = 0) :
    writeNumber x = .ok (.integer 0) := by
  have units : x.signed = (0 : Int) * FloatFormat.double.one := by
    have size := Binary64.natAbs_signed x
    omega
  have whole : x.integral = some 0 := by
    rw [Binary64.integral_eq, Binary64.toInt?_eq_some_iff.mpr ⟨finite, units⟩]
    rfl
  rw [writeNumber, Binary64.isNaN_of_isFinite finite, whole]
  rfl

/-- A value whose sets have common types comes back from its first trip with the same inferred type.
It is written with the very same bytes then, so that it comes back from its second trip as it is.
The length fields of the format must hold the lengths in what is written. -/
theorem decode_encode_settled {value back : Value} {bytes : List UInt8} (ordered : value.Ordered)
    (agree : value.SetsAgree) (sized : ∀ raw, document value .dynamic = .ok raw → raw.Sized)
    (written : encode value .dynamic = .ok bytes) (read : decode bytes .dynamic = .ok back) :
    back.ty = value.ty ∧ encode back .dynamic = .ok bytes ∧
      ∀ again, encode back .dynamic = .ok again → decode again .dynamic = .ok back := by
  obtain ⟨raw, made, rfl⟩ := map_eq_ok.mp written
  obtain ⟨legible, shallow⟩ :=
    (exists_decode_iff ordered Value.ordered_dynamic made (sized raw made)).mp ⟨back, read⟩
  have shape := decode_written ordered Value.ordered_dynamic made (sized raw made) legible shallow
  obtain rfl : back = value.reshaped .dynamic := Except.ok.inj (read.symm.trans shape)
  obtain ⟨typed, same⟩ := reshaped_own (settled ordered agree)
  have writtenAgain : encode (value.reshaped .dynamic) .dynamic = .ok raw.write := by
    rw [encode, same, made]
    rfl
  refine ⟨typed, writtenAgain, fun again done => ?_⟩
  obtain rfl : again = raw.write := Except.ok.inj (done.symm.trans writtenAgain)
  exact read

/-- A list without a common type comes back as a tuple, and what is not known beside it with the
tuple's type. -/
theorem decode_encode_settled_mixed :
    let value := Value.set [.list [.bool true, .string "a"], .unknown (.tuple [.dynamic, .dynamic])]
    let back := Value.set [.tuple [.bool true, .string "a"], .unknown (.tuple [.bool, .string])]
    ∃ bytes, encode value .dynamic = .ok bytes ∧ decode bytes .dynamic = .ok back ∧
      back.ty = value.ty ∧ encode back .dynamic = .ok bytes := by
  intro value back
  let inner := MsgPack.array [.array [.bool true, .ofText "a"], unknownDocument]
  let raw := MsgPack.array [.binary value.ty.toBytes, inner]
  have made : document value .dynamic = .ok raw := by rfl
  have known : (Ty.tuple [.dynamic, .dynamic]).Ordered := by
    intro part member
    fin_cases member <;> trivial
  have ordered : value.Ordered := by
    intro part member
    fin_cases member <;> trivial
  have shared : Ty.common [Ty.tuple [.bool, .string], .tuple [.dynamic, .dynamic]] ≠ none := by
    decide
  have agree : value.SetsAgree := by
    intro part member
    fin_cases member <;> trivial
  have sized : raw.Sized := MsgPack.sized_of_length (by decide)
  have legible : raw.Legible := by
    apply MsgPack.legible_pair
    · exact MsgPack.isLegible_toBytes (Value.ordered_ty ordered) (by decide)
    · refine MsgPack.legible_of_textual fun part member => ?_
      fin_cases member <;> simp [MsgPack.ofText, unknownDocument]
  have written : encode value .dynamic = .ok raw.write := map_eq_ok.mpr ⟨raw, made, rfl⟩
  have read : decode raw.write .dynamic = .ok back :=
    decode_written ordered Value.ordered_dynamic made sized legible (by decide)
  obtain ⟨typed, again, -⟩ := decode_encode_settled ordered agree
    (fun other also => Except.ok.inj (made.symm.trans also) ▸ sized) written read
  exact ⟨_, written, read, typed, again⟩

/-- Not every value has settled after one trip: behind a text as long as the limit, announced as the
empty one, its own bytes are read as the next items. Among them is a negative zero, which is then
written as an integer. -/
theorem not_decode_encode_settled_oversized :
    ¬ ∀ (value back : Value) (bytes : List UInt8), value.Ordered → value.SetsAgree →
      encode value .dynamic = .ok bytes → decode bytes .dynamic = .ok back →
        back.ty = value.ty ∧ encode back .dynamic = .ok bytes ∧
          ∀ again, encode back .dynamic = .ok again → decode again .dynamic = .ok back := by
  intro all
  obtain ⟨first, half⟩ : ∃ first, first = 0x80000000 := ⟨_, rfl⟩
  obtain ⟨second, rest⟩ : ∃ second, second = 0x7fffffed := ⟨_, rfl⟩
  let x : Binary64 := ⟨0x8000000000000000⟩
  let value := quadruple (outerText first second) ⟨0⟩ (letters 128) (letters 142)
  let back := quadruple "" x (letters first) (innerText second)
  let raw := quadrupleDocument "" negativeZero (letters first) (innerText second)
  have zero : writeNumber ⟨0⟩ = .ok (.integer 0) := writeNumber_zero (by decide) (by decide)
  have written : encode value .dynamic = .ok raw.write := by
    rw [encode, document_quadruple _ _ _ zero]
    exact congrArg Except.ok (write_outerText half rest)
  have decoded : decode raw.write .dynamic = .ok back := by
    have sized : ∀ text ∈ ["", letters first, innerText second],
        (utf8 text).length < MsgPack.lengthLimit := by
      simp only [List.forall_mem_cons, length_utf8_letters, length_innerText, half, rest]
      exact ⟨by decide, by decide, by decide, List.forall_mem_nil _⟩
    have reads : MsgPack.Reads negativeZero MsgPack.read :=
      MsgPack.reads_write (MsgPack.sized_of_length (by decide))
        (MsgPack.ranged_iff.mpr ⟨trivial, List.forall_mem_nil _⟩)
    have whole := reads_quadruple _ _ _ sized reads MsgPack.depthBudget []
    have shallow : raw.nesting ≤ MsgPack.depthBudget := by
      simp [raw, quadrupleDocument, negativeZero, MsgPack.nesting, MsgPack.nestingOfItems,
        MsgPack.ofText, MsgPack.depthBudget]
    rw [List.append_nil, if_pos shallow] at whole
    rw [decode, whole]
    exact read_quadruple _ _ _ (by rfl)
  have again : writeNumber x = .ok (.integer 0) := writeNumber_zero (by decide) (by decide)
  obtain ⟨-, same, -⟩ := all value back raw.write (ordered_quadruple _ _ _ _)
    (setsAgree_quadruple _ _ _ _) written decoded
  rw [encode, document_quadruple _ _ _ again] at same
  have bytes := write_number_of_quadruple _ _ _ (Except.ok.inj same)
  cases bytes

end Wire.Binary

end ScriptHost
