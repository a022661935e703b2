import ScriptHost.Proofs.Value.Plain
import ScriptHost.Proofs.Wire.Agree
import ScriptHost.Proofs.Wire.Sound

set_option autoImplicit false

namespace ScriptHost

namespace Value

theorem known_finite_of_children {value : Value} (known : ∀ ty, value ≠ unknown ty)
    (finite : ∀ x : Binary64, value = number x → x.isFinite = true)
    (inside : ∀ child ∈ value.children, child.Known ∧ child.Finite) :
    value.Known ∧ value.Finite :=
  ⟨known_iff.mpr ⟨known, fun child member => (inside child member).1⟩,
    finite_iff.mpr ⟨finite, fun child member => (inside child member).2⟩⟩

end Value

namespace Wire

namespace Text

open Binary (exists_backs exists_mem_zip exists_named_results exists_results mem_of_fields)

/-- Nothing is written but a known value with finite numbers. -/
def Restricts (value : Value) (writer : Ty → Encoded Json) : Prop :=
  ∀ ty raw, writer ty = .ok raw → value.Known ∧ value.Finite

theorem writeNumber_eq_ok {x : Binary64} {raw : Json} :
    writeNumber x = .ok raw ↔
      x.isFinite = true ∧ raw = x.integral.elim (.float x) .integer := by
  rw [writeNumber]
  by_cases finite : x.isFinite = true
  · cases x.integral <;> simp [finite, eq_comm]
  · simp [Binary64.integral_of_not_isFinite finite, finite, refuse]

theorem restricts_document {value : Value} (typed : Restricts value (write value)) :
    Restricts value (document value) := by
  intro ty raw written
  by_cases untyped : ty = .dynamic
  · subst untyped
    by_cases nothing : value = .null
    · exact typed value.ty .null (by rw [nothing]; rfl)
    · rw [document_dynamic_of_ne_null nothing, map_eq_ok] at written
      obtain ⟨inner, done, -⟩ := written
      exact typed value.ty inner done
  · rw [document_of_typed value untyped] at written
    exact typed ty raw written

theorem restricts_items {value : Value} {items : List Value} (sequence : value.items? = some items)
    (inside : ∀ item ∈ items, Restricts item (document item)) :
    Restricts value (write value) := by
  intro ty raw written
  rw [write_of_items? ty sequence] at written
  obtain ⟨types, places, raws, results, -⟩ := writeItems_eq_ok.mp written
  have each := exists_results.mp ⟨raws, results⟩
  apply Value.known_finite_of_children
  · rintro ty rfl
    cases sequence
  · rintro x rfl
    cases sequence
  · rw [Value.children_of_items? sequence]
    intro item member
    obtain ⟨type, zipped⟩ := exists_mem_zip (Ty.length_of_itemTypes? places) member
    obtain ⟨result, done⟩ := each _ zipped
    exact inside item member type result done

/-- The names of a collection are among those of the type, so that all its entries are written. -/
theorem restricts_entries {value : Value} {entries : List (String × Value)}
    (collection : value.entries? = some entries) (sorted : Dict.Sorted entries)
    (inside : ∀ entry ∈ entries, Restricts entry.2 (document entry.2)) :
    Restricts value (write value) := by
  intro ty raw written
  rw [write_of_entries? ty collection] at written
  obtain ⟨fields, places, raws, results, -⟩ := (writeEntries_eq_ok document_null sorted).mp written
  have each := exists_named_results.mp ⟨raws, results⟩
  apply Value.known_finite_of_children
  · rintro ty rfl
    cases collection
  · rintro x rfl
    cases collection
  · rw [Value.children_of_entries? collection, List.forall_mem_map]
    intro entry member
    have named := Ty.subset_of_entryTypes? places (Dict.mem_keys_of_mem member)
    obtain ⟨field, here, same⟩ := List.mem_map.mp named
    obtain ⟨result, done⟩ := each field here
    rw [same, entry_of_mem sorted member] at done
    exact inside entry member field.2 result done

theorem restricts_write {value : Value} (ordered : value.Ordered) :
    Restricts value (write value) := by
  induction value with
  | null | bool | string =>
      intro ty raw _
      exact Value.known_finite_of_children (by simp) (by simp) (List.forall_mem_nil _)
  | unknown => exact fun ty raw written => nomatch written
  | number x =>
      intro ty raw written
      rw [write] at written
      split at written
      · obtain ⟨finite, -⟩ := writeNumber_eq_ok.mp written
        exact Value.known_finite_of_children (by simp) (by simp [finite]) (List.forall_mem_nil _)
      · cases written
  | list items ih | set items ih | tuple items ih =>
      have inside := (Value.ordered_iff.mp ordered).2
      exact restricts_items rfl fun item member =>
        restricts_document (ih item member (inside item member))
  | map entries ih | object entries ih =>
      obtain ⟨sorted, inside⟩ := Value.ordered_iff.mp ordered
      exact restricts_entries rfl sorted fun entry member =>
        restricts_document (ih entry member (inside _ (List.mem_map_of_mem member)))

/-- The bytes of a document within the limit of the reader are read as the value reshaped. -/
theorem decode_written {value : Value} {ty : Ty} {raw : Json} (valueOrdered : value.Ordered)
    (typeOrdered : ty.Ordered) (made : document value ty = .ok raw)
    (shallow : raw.depth ≤ Json.depthLimit) : decode raw.render ty = .ok (value.reshaped ty) := by
  obtain ⟨known, finite⟩ := restricts_document (restricts_write valueOrdered) ty raw made
  obtain ⟨outcome, binary, text, alike⟩ := WrittenAlike.ofDocument valueOrdered
    (Value.known_iff.mp known).1 (fun _ => WrittenAlike.ofWrite valueOrdered known finite)
    typeOrdered
  rw [made] at text
  cases outcome with
  | error failure => cases text
  | ok twin =>
      obtain ⟨rfl, twinAlike⟩ := alike twin rfl
      obtain rfl : raw = twin.document := Except.ok.inj text
      obtain ⟨back, binaryRead, textRead⟩ := twinAlike.exists_read typeOrdered shallow
      -- the binary form is known to come back reshaped, and both forms are read alike
      have recovered : Binary.read twin.raw twin.ty = .ok (value.reshaped twin.ty) :=
        Binary.recovers_document (Binary.recovers_write value) valueOrdered twin.ty twin.raw
          typeOrdered (twinAlike.legible shallow) binary
      rw [decode, (Json.parse_render twinAlike.reads).1 shallow, ← recovered, binaryRead]
      exact textRead

/-- What is read from a document is written again, if its numbers are finite, in a document that is
no deeper. -/
def Rewritten (raw : Json) : Prop :=
  ∀ ty value, ty.Ordered → ty.Rigid → value.Finite → read raw ty = .ok value →
    ∃ back, document value ty = .ok back ∧ back.depth ≤ raw.depth

theorem rewritten_readScalar {raw : Json} {ty : Ty} {value : Value} (finite : value.Finite)
    (done : readScalar raw ty = .ok value) :
    ∃ back, document value ty = .ok back ∧ back.depth ≤ raw.depth := by
  have number (x : Binary64) (same : value = .number x) :
      ∃ back, document (.number x) .number = .ok back ∧ back.depth ≤ raw.depth := by
    have written : writeNumber x = .ok (x.integral.elim (.float x) .integer) :=
      writeNumber_eq_ok.mpr ⟨(Value.finite_iff.mp finite).1 x same, rfl⟩
    refine ⟨_, written, ?_⟩
    cases x.integral <;> exact Nat.zero_le _
  unfold readScalar at done
  split at done
  · cases done
  · cases done
    exact ⟨.bool _, rfl, Nat.le_refl _⟩
  · cases done
    exact number _ rfl
  · cases done
    exact number _ rfl
  · split at done
    · cases done
      exact number _ rfl
    · cases done
  · cases done
    exact ⟨.string _, rfl, Nat.le_refl _⟩
  · cases done

theorem rewritten_array {raws : List Json} (inside : ∀ raw ∈ raws, Rewritten raw) :
    Rewritten (.array raws) := by
  intro ty value ordered rigid finite done
  obtain ⟨typed, rigidInside⟩ := Ty.rigid_iff.mp rigid
  rw [read_array typed] at done
  obtain ⟨types, places, values, results, rfl⟩ := readArray_eq_ok.mp done
  have typesOrdered := Ty.ordered_of_itemTypes? ordered places
  have typesRigid : ∀ type ∈ types, type.Rigid := by
    intro type member
    exact rigidInside type (Ty.mem_children_of_itemTypes? places type member)
  have valuesFinite : ∀ value ∈ values, value.Finite := by
    intro value member
    apply (Value.finite_iff.mp finite).2
    rwa [Value.children_of_items? (Binary.items?_sequenceOf ty values)]
  have length := length_of_zipWith results (Ty.length_of_itemTypes? places)
  obtain ⟨backs, made, -, origins⟩ := exists_backs results
    fun raw inRaws type inTypes value inValues found =>
      inside raw inRaws type value (typesOrdered type inTypes) (typesRigid type inTypes)
        (valuesFinite value inValues) found
  refine ⟨.array backs, ?_, Json.depth_array_le origins⟩
  rw [document_of_typed _ typed, write_of_items? _ (Binary.items?_sequenceOf ty values)]
  exact writeItems_eq_ok.mpr ⟨types, by rw [length]; exact places, backs, made, rfl⟩

theorem rewritten_object {raws : List (String × Json)} (rawsSorted : Dict.Sorted raws)
    (inside : ∀ raw ∈ raws, Rewritten raw.2) : Rewritten (.object raws) := by
  intro ty value ordered rigid finite done
  obtain ⟨typed, rigidInside⟩ := Ty.rigid_iff.mp rigid
  rw [read_object typed] at done
  obtain ⟨fields, places, names, entries, results, rfl⟩ :=
    (readObject_eq_ok ordered rawsSorted).mp done
  obtain ⟨sameNames, origins⟩ := of_results names results
  have sorted : Dict.Sorted entries := by
    rw [Dict.Sorted, sameNames, ← names]
    exact rawsSorted
  have entryPlaces : ty.entryTypes? (Dict.keys entries) = some fields := by
    rw [sameNames, ← names]
    exact places
  have typesOrdered := Ty.ordered_of_entryTypes? ordered places
  have entriesFinite : ∀ entry ∈ entries, entry.2.Finite := by
    intro entry member
    apply (Value.finite_iff.mp finite).2
    rw [Value.children_of_entries? (Binary.entries?_collectionOf ty entries)]
    exact List.mem_map_of_mem member
  have each : ∀ field ∈ fields, ∃ back,
      document (Value.entry entries field.1) field.2 = .ok back ∧
        ∃ raw ∈ raws, back.depth ≤ raw.2.depth := by
    intro field member
    have named : field.1 ∈ Dict.keys entries := sameNames ▸ Dict.mem_keys_of_mem member
    obtain ⟨entry, here, same⟩ := List.mem_map.mp named
    obtain ⟨raw, inRaws, place, inFields, label, found⟩ := origins entry here
    -- names are distinct, so the entry was read under the type of this very field
    obtain rfl : place = field := by
      have declared := Ty.entryType?_of_entryTypes? ordered places
      have own : ty.entryType? field.1 = some place.2 := label.trans same ▸ declared place inFields
      have types : some place.2 = some field.2 := own.symm.trans (declared field member)
      exact Prod.ext (label.trans same) (Option.some.inj types)
    have child := Ty.mem_children_of_entryTypes? places place inFields
    obtain ⟨back, made, below⟩ := inside raw inRaws place.2 entry.2 (typesOrdered place inFields)
      (rigidInside _ child) (entriesFinite entry here) found
    rw [← same, entry_of_mem sorted here]
    exact ⟨back, made, raw, inRaws, below⟩
  obtain ⟨backs, made⟩ := exists_named_results.mpr fun field member => by
    obtain ⟨back, done, -⟩ := each field member
    exact ⟨back, done⟩
  refine ⟨.object backs, ?_, Json.depth_object_le fun back member => ?_⟩
  · rw [document_of_typed _ typed, write_of_entries? _ (Binary.entries?_collectionOf ty entries)]
    exact (writeEntries_eq_ok document_null sorted).mpr ⟨fields, entryPlaces, backs, made, rfl⟩
  · obtain ⟨field, inFields, -, content⟩ := mem_of_fields made member
    obtain ⟨other, done, raw, inRaws, below⟩ := each field inFields
    obtain rfl : other = back.2 := Except.ok.inj (done.symm.trans content)
    exact ⟨raw, inRaws, below⟩

theorem rewritten_read {raw : Json} (canonical : Json.Canonical raw) : Rewritten raw := by
  induction canonical with
  | null =>
      intro ty value _ _ _ done
      cases done
      exact ⟨.null, document_null ty, Nat.le_refl _⟩
  | array _ ih => exact rewritten_array ih
  | object sorted _ ih => exact rewritten_object sorted ih
  | _ => exact fun ty value _ _ finite done => rewritten_readScalar finite done

/-- What was read from the text form under a type without dynamic parts can be written again exactly
if all numbers in it are finite; what is written is read as the same. -/
theorem encode_iff_finite {bytes : List UInt8} {ty : Ty} {value : Value} (ordered : ty.Ordered)
    (rigid : ty.Rigid) (done : decode bytes ty = .ok value) :
    ((∃ again, encode value ty = .ok again) ↔ value.Finite) ∧
      ∀ again, encode value ty = .ok again →
        ∃ back, decode again ty = .ok back ∧ value.equal back = true := by
  rw [decode] at done
  split at done
  · cases done
  rename_i raw parsed
  have canonical := Json.canonical_of_parse parsed
  obtain ⟨hasType, valueOrdered⟩ := sound_read canonical ty value ordered done
  have shallow (finite : value.Finite) :
      ∃ back, document value ty = .ok back ∧ back.depth ≤ Json.depthLimit := by
    obtain ⟨back, made, below⟩ := rewritten_read canonical ty value ordered rigid finite done
    exact ⟨back, made, Nat.le_trans below (Json.depth_le_of_parse parsed)⟩
  constructor
  · constructor
    · rintro ⟨again, written⟩
      obtain ⟨back, made, -⟩ := map_eq_ok.mp written
      exact (restricts_document (restricts_write valueOrdered) ty back made).2
    · intro finite
      obtain ⟨back, made, -⟩ := shallow finite
      exact ⟨back.render, by rw [encode, made]; rfl⟩
  · intro again written
    obtain ⟨other, made, rfl⟩ := map_eq_ok.mp written
    have finite := (restricts_document (restricts_write valueOrdered) ty other made).2
    obtain ⟨back, alsoMade, below⟩ := shallow finite
    obtain rfl : other = back := Except.ok.inj (made.symm.trans alsoMade)
    exact ⟨value.reshaped ty, decode_written valueOrdered ordered made below,
      Binary.equal_reshaped hasType ordered rigid valueOrdered⟩

end Text

/-- What was read from the text form under a type without dynamic parts can be written under it
again exactly if all numbers in it are finite, and what is written is read as an equal value. -/
theorem encodeText_iff_finite {bytes : List UInt8} {ty : Ty} {value : Value} (ordered : ty.Ordered)
    (rigid : ty.Rigid) (done : decodeText bytes ty = .ok value) :
    ((∃ again, encodeText value ty = .ok again) ↔ value.Finite) ∧
      ∀ again, encodeText value ty = .ok again →
        ∃ back, decodeText again ty = .ok back ∧ value.equal back = true := by
  simp only [encodeText, decodeText, mapError_eq_ok] at done ⊢
  exact Text.encode_iff_finite ordered rigid done

/-- A string that spells a number, with blanks around it, is written as the number. -/
theorem encodeText_iff_finite_padded :
    let ty := Ty.list .number
    let value := Value.list [.ofInt 5, .null]
    let bytes := utf8 "[\" 5 \",null]"
    ty.Ordered ∧ ty.Rigid ∧ decodeText bytes ty = .ok value ∧
      ∃ again, encodeText value ty = .ok again ∧
        ∃ back, decodeText again ty = .ok back ∧ value.equal back = true := by
  intro ty value bytes
  have ordered : ty.Ordered := by
    intro part member
    fin_cases member <;> trivial
  have rigid : ty.Rigid := by
    intro part member
    fin_cases member <;> simp
  have finite : value.Finite := by
    intro part member
    fin_cases member
    · simp
    · simp [Value.ofInt, Binary64.isFinite_ofInt]
    · simp
  have done : decodeText bytes ty = .ok value := by
    have parsed : Json.parse bytes = .ok (.array [.string " 5 ", .null]) := by rfl
    have five : Binary64.ofPaddedText? " 5 " = some (.ofInt 5) := by decide +kernel
    rw [decodeText, Text.decode, parsed]
    simp [ty, value, Text.read, readArray, Text.readers, Text.readScalar, five, collect, under,
      Except.map, Except.mapError, Value.ofInt]
  obtain ⟨written, back⟩ := encodeText_iff_finite ordered rigid done
  obtain ⟨again, same⟩ := written.mpr finite
  exact ⟨ordered, rigid, done, again, same, back again same⟩

/-- The text form has a spelling for an infinite number, but the writer none. -/
theorem not_encodeText_infinite :
    ¬ ∀ (bytes : List UInt8) (ty : Ty) (value : Value), ty.Ordered → ty.Rigid →
      decodeText bytes ty = .ok value →
        ∃ again, encodeText value ty = .ok again ∧
          ∃ back, decodeText again ty = .ok back ∧ value.equal back = true := by
  intro all
  have ordered : Ty.number.Ordered := by
    intro part member
    fin_cases member
    trivial
  have rigid : Ty.number.Rigid := by
    intro part member
    fin_cases member
    simp
  have done : decodeText (utf8 "\"inf\"") .number = .ok (.number ⟨0x7ff0000000000000⟩) := by rfl
  obtain ⟨again, written, -⟩ := all _ _ _ ordered rigid done
  have whole : Binary64.integral ⟨0x7ff0000000000000⟩ = none :=
    Binary64.integral_of_not_isFinite (by decide)
  have unwritable : Text.writeNumber ⟨0x7ff0000000000000⟩ =
      refuse (.notFinite ⟨0x7ff0000000000000⟩) := by
    rw [Text.writeNumber, whole]
    rfl
  have refused : encodeText (.number ⟨0x7ff0000000000000⟩) .number =
      .error (.encode .text "" "inf cannot be represented in JSON") := by
    unfold encodeText Text.encode Text.document Text.writeUnder Text.write
    rw [unwritable]
    rfl
  rw [refused] at written
  cases written

end Wire

end ScriptHost
