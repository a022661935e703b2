import Mathlib.Tactic.FinCases
import ScriptHost.Proofs.Wire.Limits
import ScriptHost.Proofs.Wire.Twin

set_option autoImplicit false

namespace ScriptHost

namespace Value

/-- All numbers inside are finite. -/
def Finite (value : Value) : Prop :=
  ∀ part ∈ value.parts, ∀ x : Binary64, part = number x → x.isFinite = true

theorem finite_iff {value : Value} :
    value.Finite ↔ (∀ x : Binary64, value = number x → x.isFinite = true) ∧
      ∀ child ∈ value.children, child.Finite := forall_mem_parts

end Value

namespace Wire

/-- Both forms fail alike, or they are documents that hold one value of the type. -/
def WrittenAlike (ty : Ty) (binary : Encoded MsgPack) (text : Encoded Json) : Prop :=
  ∃ outcome : Encoded Twin, binary = outcome.map Twin.raw ∧ text = outcome.map Twin.document ∧
    ∀ twin, outcome = .ok twin → twin.ty = ty ∧ twin.Alike

namespace WrittenAlike

theorem ofRefused (ty : Ty) (cause : EncodeCause) :
    WrittenAlike ty (refuse cause) (refuse cause) :=
  ⟨refuse cause, rfl, rfl, by simp [refuse]⟩

theorem ofAlike {twin : Twin} (alike : twin.Alike) :
    WrittenAlike twin.ty (.ok twin.raw) (.ok twin.document) := by
  refine ⟨.ok twin, rfl, rfl, ?_⟩
  rintro other ⟨⟩
  exact ⟨rfl, alike⟩

/-- Sequences are alike if their items are at every place. -/
theorem ofItems {kind : String} {items : List Value} {ty : Ty} (ordered : ty.Ordered)
    (each : ∀ item ∈ items, ∀ type : Ty, type.Ordered →
      WrittenAlike type (Binary.document item type) (Text.document item type)) :
    WrittenAlike ty (writeItems .array kind (Binary.writers items) ty)
      (writeItems .array kind (Text.writers items) ty) := by
  rw [Binary.writers_eq, Text.writers_eq]
  cases places : ty.itemTypes? items.length with
  | none =>
      rw [writeItems_of_misfit places, writeItems_of_misfit places]
      exact ofRefused ty _
  | some types =>
      have length := Ty.length_of_itemTypes? places
      have typesOrdered := Ty.ordered_of_itemTypes? ordered places
      have written : ∀ place ∈ items.zip types,
          WrittenAlike place.2 (Binary.document place.1 place.2)
            (Text.document place.1 place.2) := by
        intro place member
        obtain ⟨here, there⟩ := List.of_mem_zip member
        exact each place.1 here place.2 (typesOrdered place.2 there)
      have : Nonempty (Encoded Twin) := ⟨refuse .notKnown⟩
      choose! outcome binary text alike using written
      -- both forms are images of these outcomes, so the first that fails is the same in both
      let outcomes := (items.zip types).map outcome
      have raws : List.zipWith Binary.document items types = outcomes.map (·.map Twin.raw) := by
        rw [← List.map_uncurry_zip_eq_zipWith, List.map_map]
        exact List.map_congr_left binary
      have documents :
          List.zipWith Text.document items types = outcomes.map (·.map Twin.document) := by
        rw [← List.map_uncurry_zip_eq_zipWith, List.map_map]
        exact List.map_congr_left text
      rw [writeItems_of_places places, writeItems_of_places places, raws, documents,
        collect_map, collect_map]
      cases all : collect 0 outcomes with
      | error failure => exact ⟨.error failure, rfl, rfl, by simp⟩
      | ok twins =>
          obtain ⟨typed, twinsAlike⟩ := of_map_eq (collect_eq_ok.mp all) alike
          rw [List.map_snd_zip (by omega)] at typed
          have sameLength : twins.length = items.length := by
            rw [← length, ← typed, List.length_map]
          have whole : ty.itemTypes? twins.length = some (twins.map Twin.ty) := by
            rw [sameLength, typed]
            exact places
          exact ofAlike (.array whole twinsAlike)

/-- Collections are alike if what they hold under every name is. -/
theorem ofEntries {kind : String} {entries : List (String × Value)} {ty : Ty}
    (ordered : ty.Ordered) (sorted : Dict.Sorted entries)
    (each : ∀ entry ∈ entries, ∀ type : Ty, type.Ordered →
      WrittenAlike type (Binary.document entry.2 type) (Text.document entry.2 type)) :
    WrittenAlike ty (writeEntries .nil Binary.mapDocument kind (Binary.entryWriters entries) ty)
      (writeEntries .null .object kind (Text.entryWriters entries) ty) := by
  rw [Binary.entryWriters_eq, Text.entryWriters_eq]
  cases places : ty.entryTypes? (Dict.keys entries) with
  | none =>
      rw [writeEntries_of_misfit places, writeEntries_of_misfit places]
      exact ofRefused ty _
  | some fields =>
      have typesOrdered := Ty.ordered_of_entryTypes? ordered places
      have written : ∀ field ∈ fields,
          WrittenAlike field.2 (Binary.document (Value.entry entries field.1) field.2)
            (Text.document (Value.entry entries field.1) field.2) := by
        intro field member
        let Written (value : Value) : Prop := ∀ type : Ty, type.Ordered →
          WrittenAlike type (Binary.document value type) (Text.document value type)
        have all : Written (Value.entry entries field.1) := by
          apply Value.forall_entry Written
          · intro type _
            rw [Binary.document_null, Text.document_null]
            exact ofAlike (.null type)
          · exact each
        exact all field.2 (typesOrdered field member)
      have : Nonempty (Encoded Twin) := ⟨refuse .notKnown⟩
      choose! outcome binary text alike using written
      let outcomes := fields.map fun field => (field.1, outcome field)
      have raws : (fields.map fun field =>
          (field.1, Binary.document (Value.entry entries field.1) field.2)) =
            outcomes.map fun entry => (entry.1, entry.2.map Twin.raw) := by
        rw [List.map_map]
        exact List.map_congr_left fun field member =>
          congrArg (Prod.mk field.1) (binary field member)
      have documents : (fields.map fun field =>
          (field.1, Text.document (Value.entry entries field.1) field.2)) =
            outcomes.map fun entry => (entry.1, entry.2.map Twin.document) := by
        rw [List.map_map]
        exact List.map_congr_left fun field member => congrArg (Prod.mk field.1) (text field member)
      rw [writeEntries_of_places Binary.document_null sorted places,
        writeEntries_of_places Text.document_null sorted places, raws, documents,
        collectNamed_map, collectNamed_map]
      cases all : collectNamed outcomes with
      | error failure => exact ⟨.error failure, rfl, rfl, by simp⟩
      | ok twins =>
          let field (entry : String × Twin) : String × Ty := (entry.1, entry.2.ty)
          obtain ⟨typed, twinsAlike⟩ : twins.map field = fields.map id ∧
              ∀ entry ∈ twins, entry.2.Alike := by
            apply of_map_eq (collectNamed_eq_ok.mp all)
            intro place member entry same
            obtain ⟨name, came⟩ := Prod.ext_iff.mp same
            obtain ⟨type, twinAlike⟩ := alike place member entry.2 came
            exact ⟨Prod.ext name.symm type, twinAlike⟩
          rw [List.map_id] at typed
          have names : Dict.keys twins = Dict.keys fields := by
            rw [← typed, Dict.keys_map]
          have ascend : Dict.Sorted twins := by
            rw [Dict.Sorted, names]
            exact Ty.sorted_of_entryTypes? ordered sorted places
          have whole : ty.entryTypes? (Dict.keys twins) = some (twins.map field) := by
            rw [names, typed]
            exact Ty.entryTypes?_keys places
          exact ofAlike (.object ascend whole twinsAlike)

/-- Under a dynamic type a value comes with its own type. -/
theorem ofDocument {value : Value} (ordered : value.Ordered) (known : ∀ ty, value ≠ .unknown ty)
    (typed : ∀ ty : Ty, ty.Ordered → WrittenAlike ty (Binary.write value ty) (Text.write value ty))
    {ty : Ty} (typeOrdered : ty.Ordered) :
    WrittenAlike ty (Binary.document value ty) (Text.document value ty) := by
  by_cases untyped : ty = .dynamic
  · subst untyped
    by_cases nothing : value.ty = .dynamic
    · rcases Value.ty_eq_dynamic nothing with rfl | rfl
      · exact ofAlike (.null .dynamic)
      · exact absurd rfl (known .dynamic)
    · have own := Value.ordered_ty ordered
      obtain ⟨outcome, binary, text, alike⟩ := typed value.ty own
      have there : value ≠ .null := by
        rintro rfl
        exact nothing rfl
      rw [Binary.document_dynamic_of_typed nothing, Text.document_dynamic_of_ne_null there, binary,
        text]
      cases outcome with
      | error failure => exact ⟨.error failure, rfl, rfl, by simp⟩
      | ok twin =>
          obtain ⟨type, twinAlike⟩ := alike twin rfl
          rw [← type] at nothing own ⊢
          exact ofAlike (.dynamic nothing own twinAlike)
  · rw [Binary.document_of_typed value untyped, Text.document_of_typed value untyped]
    exact typed ty typeOrdered

theorem ofNumber {x : Binary64} (finite : x.isFinite = true) (ty : Ty) :
    WrittenAlike ty (Binary.write (.number x) ty) (Text.write (.number x) ty) := by
  rw [Binary.write, Text.write]
  by_cases same : ty = .number
  · subst same
    have real := Binary64.isNaN_of_isFinite finite
    cases whole : x.integral with
    | some n =>
        obtain ⟨-, least, greatest⟩ := Binary64.integral_eq_some whole
        unfold Binary64.wordLimit at least greatest
        simp only [if_true, Binary.writeNumber, Text.writeNumber, real, whole]
        exact ofAlike (.integer (by omega) (by omega))
    | none =>
        simp only [if_true, Binary.writeNumber, Text.writeNumber, real, whole, finite]
        exact ofAlike (.float finite)
  · rw [if_neg same, if_neg same]
    exact ofRefused ty _

/-- What is written of a known value with finite numbers is alike in both forms. -/
theorem ofWrite {value : Value} (ordered : value.Ordered) (known : value.Known)
    (finite : value.Finite) {ty : Ty} (typeOrdered : ty.Ordered) :
    WrittenAlike ty (Binary.write value ty) (Text.write value ty) := by
  induction value generalizing ty with
  | null => exact ofAlike (.null ty)
  | unknown type => exact absurd rfl ((Value.known_iff.mp known).1 type)
  | bool b =>
      rw [Binary.write, Text.write]
      by_cases same : ty = .bool
      · subst same
        exact ofAlike (.bool b)
      · rw [if_neg same, if_neg same]
        exact ofRefused ty _
  | number x => exact ofNumber ((Value.finite_iff.mp finite).1 x rfl) ty
  | string text =>
      rw [Binary.write, Text.write]
      by_cases same : ty = .string
      · subst same
        exact ofAlike (.string text)
      · rw [if_neg same, if_neg same]
        exact ofRefused ty _
  | list items ih | set items ih | tuple items ih =>
      have itemsOrdered := (Value.ordered_iff.mp ordered).2
      have itemsKnown := (Value.known_iff.mp known).2
      have itemsFinite := (Value.finite_iff.mp finite).2
      apply ofItems typeOrdered
      intro item member type typeOrdered
      apply ofDocument (itemsOrdered item member) (Value.known_iff.mp (itemsKnown item member)).1 _
        typeOrdered
      intro type typeOrdered
      exact ih item member (itemsOrdered item member) (itemsKnown item member)
        (itemsFinite item member) typeOrdered
  | map entries ih | object entries ih =>
      obtain ⟨sorted, entriesOrdered⟩ := Value.ordered_iff.mp ordered
      have entriesKnown := (Value.known_iff.mp known).2
      have entriesFinite := (Value.finite_iff.mp finite).2
      apply ofEntries typeOrdered sorted
      intro entry member type typeOrdered
      have child := List.mem_map_of_mem (f := Prod.snd) member
      apply ofDocument (entriesOrdered _ child) (Value.known_iff.mp (entriesKnown _ child)).1 _
        typeOrdered
      intro type typeOrdered
      exact ih entry member (entriesOrdered _ child) (entriesKnown _ child) (entriesFinite _ child)
        typeOrdered

end WrittenAlike

/-- A known value with finite numbers is refused in both forms at one place for one reason, or it is
written in both; and then what the limit of the text reader on nesting admits is read from both as
the same value. -/
theorem codecs_agree {value : Value} {ty : Ty} (valueOrdered : value.Ordered)
    (typeOrdered : ty.Ordered) (known : value.Known) (finite : value.Finite) :
    (∃ path detail, encodeBinary value ty = .error (.encode .binary path detail) ∧
      encodeText value ty = .error (.encode .text path detail)) ∨
    ∃ raw document, Binary.document value ty = .ok raw ∧ Text.document value ty = .ok document ∧
      encodeBinary value ty = .ok raw.write ∧ encodeText value ty = .ok document.render ∧
        (raw.Sized → document.depth ≤ Json.depthLimit →
          ∃ back, decodeBinary raw.write ty = .ok back ∧
            decodeText document.render ty = .ok back) := by
  obtain ⟨outcome, binary, text, alike⟩ := WrittenAlike.ofDocument valueOrdered
    (Value.known_iff.mp known).1 (fun _ => WrittenAlike.ofWrite valueOrdered known finite)
    typeOrdered
  have binaryBytes : encodeBinary value ty =
      ((outcome.map Twin.raw).map MsgPack.write).mapError (.ofEncode .binary) := by
    rw [encodeBinary, Binary.encode, binary]
  have textBytes : encodeText value ty =
      ((outcome.map Twin.document).map Json.render).mapError (.ofEncode .text) := by
    rw [encodeText, Text.encode, text]
  cases outcome with
  | error failure =>
      left
      exact ⟨pathText failure.path, failure.cause.message, binaryBytes, textBytes⟩
  | ok twin =>
      right
      obtain ⟨rfl, twinAlike⟩ := alike twin rfl
      refine ⟨twin.raw, twin.document, binary, text, binaryBytes, textBytes, ?_⟩
      intro sized shallow
      obtain ⟨back, binaryRead, textRead⟩ := twinAlike.exists_read typeOrdered shallow
      have nesting : twin.raw.nesting ≤ MsgPack.depthBudget := by
        have most := twinAlike.nesting_le
        unfold Json.depthLimit at shallow
        unfold MsgPack.depthBudget
        omega
      refine ⟨back, mapError_eq_ok.mpr ?_, mapError_eq_ok.mpr ?_⟩
      · rw [Binary.decode_write valueOrdered binary sized nesting]
        exact binaryRead
      · rw [Text.decode, (Json.parse_render twinAlike.reads).1 shallow]
        exact textRead

/-- A list is written in both forms as a tuple of which the first part comes with its type. -/
theorem codecs_agree_pair :
    let value := Value.list [.string "x", .null]
    let ty := Ty.tuple [.dynamic, .bool]
    value.Ordered ∧ ty.Ordered ∧ value.Known ∧ value.Finite ∧
      ∃ (raw : MsgPack) (document : Json), encodeBinary value ty = .ok raw.write ∧
        encodeText value ty = .ok document.render ∧ raw.Sized ∧
          document.depth ≤ Json.depthLimit ∧
            ∃ back, decodeBinary raw.write ty = .ok back ∧
              decodeText document.render ty = .ok back := by
  intro value ty
  have valueOrdered : value.Ordered := by
    intro part member
    fin_cases member <;> trivial
  have typeOrdered : ty.Ordered := by
    intro part member
    fin_cases member <;> trivial
  have known : value.Known := by
    intro part member
    fin_cases member <;> simp
  have finite : value.Finite := by
    intro part member
    fin_cases member <;> simp
  let raw := MsgPack.array [.array [.binary (utf8 "\"string\""), .string (utf8 "x")], .nil]
  let document := Json.array [.object [("type", .string "string"), ("value", .string "x")], .null]
  have made : Binary.document value ty = .ok raw := by rfl
  have shown : Text.document value ty = .ok document := by rfl
  have sized : raw.Sized := by
    unfold MsgPack.Sized
    have parts : raw.parts = [raw, .array [.binary (utf8 "\"string\""), .string (utf8 "x")],
        .binary (utf8 "\"string\""), .string (utf8 "x"), .nil] := by rfl
    rw [parts]
    decide
  have shallow : document.depth ≤ Json.depthLimit := by decide
  rcases codecs_agree valueOrdered typeOrdered known finite with refused | written
  · obtain ⟨path, detail, failed, -⟩ := refused
    rw [encodeBinary, Binary.encode, made] at failed
    cases failed
  · obtain ⟨other, text, same, alsoSame, binaryBytes, textBytes, back⟩ := written
    cases made.symm.trans same
    cases shown.symm.trans alsoSame
    exact ⟨valueOrdered, typeOrdered, known, finite, raw, document, binaryBytes, textBytes, sized,
      shallow, back sized shallow⟩

end Wire

end ScriptHost
