import Mathlib.Tactic.FinCases
import ScriptHost.Declaration.Json
import ScriptHost.Proofs.Json.Collated
import ScriptHost.Proofs.Ty.Notation

set_option autoImplicit false

namespace ScriptHost

namespace Ty

/-- The notation of an ordered type has its fields in order already. -/
theorem collated_toJson {ty : Ty} (ordered : ty.Ordered) : ty.toJson.collated = ty.toJson := by
  induction ty with
  | dynamic | bool | number | string => rfl
  | list element ih | set element ih | map element ih =>
      have inside := (ordered_iff.mp ordered).2 element (by simp [children])
      simp [toJson, ih inside]
  | object attributes ih =>
      obtain ⟨sorted, inside⟩ := ordered_iff.mp ordered
      have same : (attributes.map fun field => (field.1, field.2.toJson.collated)) =
          attributes.map fun field => (field.1, field.2.toJson) :=
        List.map_congr_left fun field member =>
          congrArg (Prod.mk field.1) (ih field member (inside _ (List.mem_map_of_mem member)))
      have listed := Dict.ofList_of_sorted ((Dict.sorted_map toJson).mpr sorted)
      simp [toJson, attributesToJson_eq, Json.collated_object, Function.comp_def, same, listed]
  | tuple elements ih =>
      obtain ⟨-, inside⟩ := ordered_iff.mp ordered
      have same : (elements.map fun element => element.toJson.collated) = elements.map toJson :=
        List.map_congr_left fun element member => ih element member (inside element member)
      simp [toJson, elementsToJson_eq, Function.comp_def, same]

@[simp] theorem writable_toJson (ty : Ty) : ty.toJson.Writable := by
  induction ty with
  | dynamic | bool | number | string => exact .string _
  | list element ih | set element ih | map element ih => simp [toJson, ih]
  | object attributes ih =>
      have noted : (Json.object (attributesToJson attributes)).Writable := by
        rw [Json.writable_object, attributesToJson_eq]
        exact List.forall_mem_map.mpr ih
      simp only [toJson, Json.writable_array, List.forall_mem_cons]
      exact ⟨.string _, noted, List.forall_mem_nil _⟩
  | tuple elements ih => simpa [toJson, elementsToJson_eq] using ih

end Ty

namespace Record

variable {α : Type}

/-- A document reads as a value, with its fields as they are and in the order of their names. -/
structure ReadsTo (read : Reader α) (document : Json) (value : α) : Prop where
  written : read document = .ok value
  collated : read document.collated = .ok value

theorem readsTo_text (value : String) : ReadsTo text (.string value) value := ⟨rfl, rfl⟩

theorem readsTo_flag (value : Bool) : ReadsTo flag (.bool value) value := ⟨rfl, rfl⟩

theorem readsTo_typeNotation {ty : Ty} (ordered : ty.Ordered) :
    ReadsTo typeNotation ty.toJson ty := by
  have known : typeNotation ty.toJson = .ok ty := by
    rw [typeNotation, Ty.ofJson_toJson, Except.mapError]
  exact ⟨known, by rw [Ty.collated_toJson ordered, known]⟩

theorem sequence_map {read : Reader α} {note : α → Json} {values : List α}
    (reads : ∀ value ∈ values, read (note value) = .ok value) :
    sequence read (.array (values.map note)) = .ok values := by
  rw [sequence]
  induction values with
  | nil => rfl
  | cons value rest ih =>
      rw [List.forall_mem_cons] at reads
      rw [List.map_cons, List.mapM_cons, reads.1, ih reads.2]
      rfl

theorem readsTo_sequence {read : Reader α} {note : α → Json} {values : List α}
    (each : ∀ value ∈ values, ReadsTo read (note value) value) :
    ReadsTo (sequence read) (.array (values.map note)) values := by
  constructor
  · exact sequence_map fun value member => (each value member).written
  · rw [Json.collated_array, List.map_map]
    exact sequence_map fun value member => (each value member).collated

theorem readsTo_nullable {read : Reader α} {fields : List (String × Json)} {value : α}
    (reads : ReadsTo read (.object fields) value) :
    ReadsTo (nullable read) (.object fields) (some value) := by
  constructor
  · rw [nullable, reads.written]
    · rfl
    · exact nofun
  · have known := reads.collated
    rw [Json.collated_object] at known ⊢
    rw [nullable, known]
    · rfl
    · exact nofun

/-- What an object holds of a field: a document that reads as its value, or nothing, and the value
is the one that reading supplies. -/
inductive Holds (fields : List (String × Json)) (field : Member α) (value : α) : Prop
  | written {document : Json} (found : Dict.get? fields field.name = some document)
      (reads : ReadsTo field.read document value)
  | omitted (missing : Dict.get? fields field.name = none) (supplied : field.default = some value)

/-- The fields of an object as they are, or in the order of their names. -/
structure View (fields view : List (String × Json)) : Prop where
  distinct : (Dict.keys view).Nodup
  shown : (∀ name, Dict.get? view name = Dict.get? fields name) ∨
    ∀ name, Dict.get? view name = (Dict.get? fields name).map Json.collated

variable {fields view : List (String × Json)} {field : Member α} {value : α}

/-- In both views an object holds a document that reads as the value, or nothing. -/
theorem Holds.cases_view (holds : Holds fields field value) (shown : View fields view) :
    (∃ document, Dict.get? view field.name = some document ∧ field.read document = .ok value) ∨
      (Dict.get? view field.name = none ∧ field.default = some value) := by
  cases holds with
  | written found reads =>
      left
      rcases shown.shown with same | collated
      · exact ⟨_, (same field.name).trans found, reads.written⟩
      · exact ⟨_, by rw [collated, found, Option.map_some], reads.collated⟩
  | omitted missing supplied =>
      right
      rcases shown.shown with same | collated
      · exact ⟨(same field.name).trans missing, supplied⟩
      · exact ⟨by rw [collated, missing, Option.map_none], supplied⟩

theorem Holds.ofObject (holds : Holds fields field value) (shown : View fields view) :
    field.ofObject view = .ok value := by
  unfold Member.ofObject
  rcases holds.cases_view shown with ⟨document, found, read⟩ | ⟨missing, supplied⟩
  · simp only [found, read]
  · simp only [missing, supplied]

/-- The documents that an object has under a name pass the check for that name. -/
def Passes (view : List (String × Json)) (check : String × (Json → Except Fault Unit)) : Prop :=
  ∀ document, (check.1, document) ∈ view → check.2 document = .ok ()

theorem Holds.passes (holds : Holds fields field value) (shown : View fields view) :
    Passes view field.check := by
  intro document member
  have here := (Dict.get?_eq_some_iff shown.distinct).mpr member
  rcases holds.cases_view shown with ⟨other, found, read⟩ | ⟨missing, -⟩
  · obtain rfl : document = other := Option.some.inj (here.symm.trans found)
    show (field.read document).map (fun _ => ()) = .ok ()
    rw [read]
    rfl
  · cases here.symm.trans missing

theorem checkFields_of_passes {checks : List (String × (Json → Except Fault Unit))}
    (passes : ∀ check ∈ checks, Passes view check) : checkFields checks view = .ok () := by
  induction view with
  | nil => rfl
  | cons field rest ih =>
      obtain ⟨name, document⟩ := field
      have behind := ih fun check member document later =>
        passes check member document (List.mem_cons_of_mem _ later)
      unfold checkFields
      split
      · rename_i check found
        have listed : (name, check) ∈ checks := Dict.mem_of_get? found
        have passed : check document = .ok () :=
          passes (name, check) listed document List.mem_cons_self
        rw [passed]
        exact behind
      · exact behind

/-- An object reads as a value if both views of its fields do. -/
theorem readsTo_object {read : Reader α} (distinct : (Dict.keys fields).Nodup)
    (reads : ∀ view, View fields view → read (.object view) = .ok value) :
    ReadsTo read (.object fields) value := by
  constructor
  · exact reads fields ⟨distinct, .inl fun _ => rfl⟩
  · rw [Json.collated_object]
    refine reads _ ⟨(Dict.sorted_ofList _).nodup, .inr fun name => ?_⟩
    rw [Dict.get?_ofList (by rwa [Dict.keys_map]), Dict.get?_map]

/-- A text that is left out if it is empty. -/
theorem holds_text {name text : String}
    (found : Dict.get? fields name = if text = "" then none else some (.string text)) :
    Holds fields ⟨name, Record.text, some ""⟩ text := by
  by_cases empty : text = ""
  · rw [if_pos empty] at found
    exact .omitted found (by rw [empty])
  · rw [if_neg empty] at found
    exact .written found (readsTo_text text)

end Record

open Record

namespace Parameter

theorem exists_fields (p : Parameter) :
    ∃ fields, p.toJson = .object fields ∧ (Dict.keys fields).Nodup ∧
      Dict.get? fields "name" = some (.string p.name) ∧
      Dict.get? fields "type" = some p.ty.toJson ∧
      Dict.get? fields "allow_null" = some (.bool p.allowNull) := by
  refine ⟨_, rfl, ?_⟩
  simp [Dict.get?_cons]

/-- The names in the type ascend. -/
def Ordered (p : Parameter) : Prop := p.ty.Ordered

theorem readsTo_toJson {p : Parameter} (ordered : p.Ordered) : ReadsTo ofJson p.toJson p := by
  obtain ⟨fields, written, distinct, name, type, allowNull⟩ := exists_fields p
  have nameHolds : Holds fields nameField p.name := .written name (readsTo_text p.name)
  have typeHolds : Holds fields typeField p.ty := .written type (readsTo_typeNotation ordered)
  have allowNullHolds : Holds fields allowNullField p.allowNull :=
    .written allowNull (readsTo_flag p.allowNull)
  rw [written]
  refine readsTo_object distinct fun view shown => ?_
  have passes : checkFields [nameField.check, typeField.check, allowNullField.check] view =
      .ok () := by
    apply checkFields_of_passes
    simp only [List.forall_mem_cons]
    exact ⟨nameHolds.passes shown, typeHolds.passes shown, allowNullHolds.passes shown, nofun⟩
  rw [ofJson, passes, nameHolds.ofObject shown, typeHolds.ofObject shown,
    allowNullHolds.ofObject shown]
  rfl

theorem writable_toJson (p : Parameter) : p.toJson.Writable := by
  simp [toJson]

end Parameter

namespace Signature

/-- An absent variadic parameter and an empty summary are not written. -/
theorem exists_fields (s : Signature) :
    ∃ fields, s.toJson = .object fields ∧ (Dict.keys fields).Nodup ∧
      Dict.get? fields "parameters" = some (.array (s.parameters.map Parameter.toJson)) ∧
      Dict.get? fields "variadic" = s.variadic.map Parameter.toJson ∧
      Dict.get? fields "return_type" = some s.returnType.toJson ∧
      Dict.get? fields "summary" = if s.summary = "" then none else some (.string s.summary) := by
  refine ⟨_, rfl, ?_⟩
  cases s.variadic <;> by_cases empty : s.summary = "" <;> simp [empty, Dict.get?_cons]

theorem holds_variadic {fields : List (String × Json)} {variadic : Option Parameter}
    (found : Dict.get? fields "variadic" = variadic.map Parameter.toJson)
    (ordered : ∀ p ∈ variadic, p.Ordered) : Holds fields variadicField variadic := by
  cases variadic with
  | none => exact .omitted found rfl
  | some p => exact .written found (readsTo_nullable (Parameter.readsTo_toJson (ordered p rfl)))

/-- The names in all types ascend. -/
structure Ordered (s : Signature) : Prop where
  parameters : ∀ p ∈ s.parameters, p.Ordered
  variadic : ∀ p ∈ s.variadic, p.Ordered
  returnType : s.returnType.Ordered

theorem readsTo_toJson {s : Signature} (ordered : s.Ordered) : ReadsTo ofJson s.toJson s := by
  obtain ⟨fields, written, distinct, parameters, variadic, returnType, summary⟩ := exists_fields s
  have parametersHold : Holds fields parametersField s.parameters :=
    .written parameters
      (readsTo_sequence fun p member => Parameter.readsTo_toJson (ordered.parameters p member))
  have variadicHolds : Holds fields variadicField s.variadic :=
    holds_variadic variadic ordered.variadic
  have returnTypeHolds : Holds fields returnTypeField s.returnType :=
    .written returnType (readsTo_typeNotation ordered.returnType)
  have summaryHolds : Holds fields summaryField s.summary := holds_text summary
  rw [written]
  refine readsTo_object distinct fun view shown => ?_
  have passes : checkFields [parametersField.check, variadicField.check, returnTypeField.check,
      summaryField.check] view = .ok () := by
    apply checkFields_of_passes
    simp only [List.forall_mem_cons]
    exact ⟨parametersHold.passes shown, variadicHolds.passes shown, returnTypeHolds.passes shown,
      summaryHolds.passes shown, nofun⟩
  rw [ofJson, passes, parametersHold.ofObject shown, variadicHolds.ofObject shown,
    returnTypeHolds.ofObject shown, summaryHolds.ofObject shown]
  rfl

theorem writable_toJson (s : Signature) : s.toJson.Writable := by
  cases given : s.variadic <;> by_cases empty : s.summary = "" <;>
    simp [toJson, given, empty, Parameter.writable_toJson]

end Signature

namespace Attribute

/-- An empty description is not written. -/
theorem exists_fields (a : Attribute) :
    ∃ fields, a.toJson = .object fields ∧ (Dict.keys fields).Nodup ∧
      Dict.get? fields "name" = some (.string a.name) ∧
      Dict.get? fields "type" = some a.ty.toJson ∧
      Dict.get? fields "required" = some (.bool a.required) ∧
      Dict.get? fields "description" =
        if a.description = "" then none else some (.string a.description) := by
  refine ⟨_, rfl, ?_⟩
  by_cases empty : a.description = "" <;> simp [empty, Dict.get?_cons]

/-- The names in the type ascend. -/
def Ordered (a : Attribute) : Prop := a.ty.Ordered

theorem readsTo_toJson {a : Attribute} (ordered : a.Ordered) : ReadsTo ofJson a.toJson a := by
  obtain ⟨fields, written, distinct, name, type, required, description⟩ := exists_fields a
  have nameHolds : Holds fields nameField a.name := .written name (readsTo_text a.name)
  have typeHolds : Holds fields typeField a.ty := .written type (readsTo_typeNotation ordered)
  have requiredHolds : Holds fields requiredField a.required :=
    .written required (readsTo_flag a.required)
  have descriptionHolds : Holds fields descriptionField a.description := holds_text description
  rw [written]
  refine readsTo_object distinct fun view shown => ?_
  have passes : checkFields [nameField.check, typeField.check, requiredField.check,
      descriptionField.check] view = .ok () := by
    apply checkFields_of_passes
    simp only [List.forall_mem_cons]
    exact ⟨nameHolds.passes shown, typeHolds.passes shown, requiredHolds.passes shown,
      descriptionHolds.passes shown, nofun⟩
  rw [ofJson, passes, nameHolds.ofObject shown, typeHolds.ofObject shown,
    requiredHolds.ofObject shown, descriptionHolds.ofObject shown]
  rfl

theorem writable_toJson (a : Attribute) : a.toJson.Writable := by
  by_cases empty : a.description = "" <;> simp [toJson, empty]

end Attribute

namespace Schema

/-- The names in all types ascend. -/
def Ordered (s : Schema) : Prop := ∀ a ∈ s.attributes, a.Ordered

theorem readsTo_toJson {s : Schema} (ordered : s.Ordered) : ReadsTo ofJson s.toJson s := by
  unfold toJson
  have attributesHold : Holds [("attributes", .array (s.attributes.map Attribute.toJson))]
      attributesField s.attributes :=
    .written rfl (readsTo_sequence fun a member => Attribute.readsTo_toJson (ordered a member))
  refine readsTo_object (by simp) fun view shown => ?_
  have passes : checkFields [attributesField.check] view = .ok () := by
    apply checkFields_of_passes
    simp only [List.forall_mem_cons]
    exact ⟨attributesHold.passes shown, nofun⟩
  rw [ofJson, passes, attributesHold.ofObject shown]
  rfl

theorem writable_toJson (s : Schema) : s.toJson.Writable := by
  simp [toJson, Attribute.writable_toJson]

end Schema

theorem Severity.readsTo_name (severity : Severity) :
    ReadsTo ofJson (.string severity.name) severity := by
  cases severity <;> exact ⟨rfl, rfl⟩

namespace Diagnostic

theorem exists_fields (d : Diagnostic) :
    ∃ fields, d.toJson = .object fields ∧ (Dict.keys fields).Nodup ∧
      Dict.get? fields "severity" = some (.string d.severity.name) ∧
      Dict.get? fields "summary" = some (.string d.summary) ∧
      Dict.get? fields "detail" = some (.string d.detail) := by
  refine ⟨_, rfl, ?_⟩
  simp [Dict.get?_cons]

theorem readsTo_toJson (d : Diagnostic) : ReadsTo ofJson d.toJson d := by
  obtain ⟨fields, written, distinct, severity, summary, detail⟩ := exists_fields d
  have severityHolds : Holds fields severityField d.severity :=
    .written severity (Severity.readsTo_name d.severity)
  have summaryHolds : Holds fields summaryField d.summary :=
    .written summary (readsTo_text d.summary)
  have detailHolds : Holds fields detailField d.detail := .written detail (readsTo_text d.detail)
  rw [written]
  refine readsTo_object distinct fun view shown => ?_
  have passes : checkFields [severityField.check, summaryField.check, detailField.check] view =
      .ok () := by
    apply checkFields_of_passes
    simp only [List.forall_mem_cons]
    exact ⟨severityHolds.passes shown, summaryHolds.passes shown, detailHolds.passes shown, nofun⟩
  rw [ofJson, passes, severityHolds.ofObject shown, summaryHolds.ofObject shown,
    detailHolds.ofObject shown]
  rfl

theorem writable_toJson (d : Diagnostic) : d.toJson.Writable := by
  simp [toJson]

end Diagnostic

/-- A declaration is read from the document that is written for it, from that document with the
fields of each object in the order of their names, and from its text. -/
structure ReadsBack {α : Type} (read : Reader α) (document : Json) (declared : α) : Prop where
  written : read document = .ok declared
  collated : read document.collated = .ok declared
  published : document.depth ≤ Json.depthLimit →
    ∃ parsed, Json.parse document.render = .ok parsed ∧ read parsed = .ok declared

theorem Record.ReadsTo.readsBack {α : Type} {read : Reader α} {document : Json} {declared : α}
    (reads : ReadsTo read document declared) (writable : document.Writable) :
    ReadsBack read document declared :=
  ⟨reads.written, reads.collated,
    fun shallow => ⟨_, writable.parse_render shallow, reads.collated⟩⟩

/-- Every declaration reads back as it was, though an absent variadic parameter, an empty summary
and an empty description are left out of what is written. -/
theorem declarations_read_back :
    (∀ p : Parameter, p.Ordered → ReadsBack Parameter.ofJson p.toJson p) ∧
      (∀ s : Signature, s.Ordered → ReadsBack Signature.ofJson s.toJson s) ∧
      (∀ a : Attribute, a.Ordered → ReadsBack Attribute.ofJson a.toJson a) ∧
      (∀ s : Schema, s.Ordered → ReadsBack Schema.ofJson s.toJson s) ∧
      (∀ d : Diagnostic, ReadsBack Diagnostic.ofJson d.toJson d) ∧
      (∀ p : Parameter, ∃ fields, p.toJson = .object fields ∧
        Dict.get? fields "type" = some p.ty.toJson) ∧
      (∀ s : Signature, ∃ fields, s.toJson = .object fields ∧
        Dict.get? fields "variadic" = s.variadic.map Parameter.toJson ∧
        Dict.get? fields "summary" = if s.summary = "" then none else some (.string s.summary)) ∧
      (∀ a : Attribute, ∃ fields, a.toJson = .object fields ∧
        Dict.get? fields "type" = some a.ty.toJson ∧
        Dict.get? fields "description" =
          if a.description = "" then none else some (.string a.description)) := by
  refine ⟨fun p ordered => ?_, fun s ordered => ?_, fun a ordered => ?_, fun s ordered => ?_,
    fun d => ?_, fun p => ?_, fun s => ?_, fun a => ?_⟩
  · exact (Parameter.readsTo_toJson ordered).readsBack p.writable_toJson
  · exact (Signature.readsTo_toJson ordered).readsBack s.writable_toJson
  · exact (Attribute.readsTo_toJson ordered).readsBack a.writable_toJson
  · exact (Schema.readsTo_toJson ordered).readsBack s.writable_toJson
  · exact (Diagnostic.readsTo_toJson d).readsBack d.writable_toJson
  · obtain ⟨fields, written, -, -, type, -⟩ := p.exists_fields
    exact ⟨fields, written, type⟩
  · obtain ⟨fields, written, -, -, variadic, -, summary⟩ := s.exists_fields
    exact ⟨fields, written, variadic, summary⟩
  · obtain ⟨fields, written, -, -, type, -, description⟩ := a.exists_fields
    exact ⟨fields, written, type, description⟩

/-- A signature and a schema with fields left out. -/
theorem declarations_read_back_omitted :
    let ty := Ty.object [("a", .list .dynamic), ("b", .number)]
    let s : Signature := ⟨[⟨"first", ty, true⟩], none, ty, ""⟩
    let schema : Schema := ⟨[⟨"lua", ty, false, ""⟩]⟩
    (Signature.ofJson s.toJson = .ok s ∧ Signature.ofJson s.toJson.collated = .ok s) ∧
      Schema.ofJson schema.toJson.collated = .ok schema := by
  intro ty s schema
  have ascend : "a" < "b" := by decide
  have type : ty.Ordered := by
    intro part member
    fin_cases member
    · exact List.pairwise_pair.mpr ascend
    all_goals trivial
  have ordered : s.Ordered := ⟨List.forall_mem_singleton.mpr type, nofun, type⟩
  have schemaOrdered : schema.Ordered := List.forall_mem_singleton.mpr type
  obtain ⟨-, signatures, -, schemas, -⟩ := declarations_read_back
  have back := signatures s ordered
  exact ⟨⟨back.written, back.collated⟩, (schemas schema schemaOrdered).collated⟩

end ScriptHost
