import ScriptHost.Proofs.Json.Canonical
import ScriptHost.Proofs.Parts
import ScriptHost.Proofs.Wire.Path
import ScriptHost.Ty.Notation

set_option autoImplicit false

namespace ScriptHost.Ty

theorem elementsToJson_eq (elements : List Ty) : elementsToJson elements = elements.map toJson :=
  eq_map_of_cons rfl (fun _ _ => rfl) elements

theorem attributesToJson_eq (attributes : List (String × Ty)) :
    attributesToJson attributes = attributes.map fun field => (field.1, field.2.toJson) :=
  eq_map_of_cons rfl (fun _ _ => rfl) attributes

theorem ofElements_map {elements : List Ty}
    (known : ∀ element ∈ elements, ofJson element.toJson = .ok element) :
    ofElements (elements.map toJson) = .ok elements := by
  induction elements with
  | nil => rfl
  | cons element rest ih =>
      obtain ⟨first, others⟩ := List.forall_mem_cons.mp known
      rw [List.map_cons, ofElements, first, ih others]
      rfl

theorem ofAttributes_map {attributes : List (String × Ty)}
    (known : ∀ field ∈ attributes, ofJson field.2.toJson = .ok field.2) :
    ofAttributes (attributes.map fun field => (field.1, field.2.toJson)) = .ok attributes := by
  induction attributes with
  | nil => rfl
  | cons field rest ih =>
      obtain ⟨first, others⟩ := List.forall_mem_cons.mp known
      rw [List.map_cons, ofAttributes, first, ih others]
      rfl

/-- The notation of a structural type with one element type. -/
theorem ofJson_element {kind : String} {structural : Ty → Ty} {element : Ty}
    (named : ofElement? kind = some structural) (known : ofJson element.toJson = .ok element) :
    ofJson (.array [.string kind, element.toJson]) = .ok (structural element) := by
  unfold ofJson ofOperands
  simp only [named, known]
  rfl

/-- A notation names the type it was made of. -/
theorem ofJson_toJson (ty : Ty) : ofJson ty.toJson = .ok ty := by
  induction ty with
  | dynamic | bool | number | string => rfl
  | list element ih | set element ih | map element ih => exact ofJson_element rfl ih
  | object attributes ih =>
      rw [toJson, attributesToJson_eq]
      unfold ofJson ofOperands
      simp [ofElement?, ofAttributes_map ih, Except.map]
  | tuple elements ih =>
      rw [toJson, elementsToJson_eq]
      unfold ofJson ofOperands
      simp [ofElement?, ofElements_map ih, Except.map]

theorem toJson_injective : Function.Injective toJson := by
  intro first second same
  have named := ofJson_toJson first
  rw [same, ofJson_toJson] at named
  exact (Except.ok.inj named).symm

/-- A structural notation is an array of the kind and one operand. -/
theorem reads_structural {kind : String} {operand : Json} (reads : Json.Reads operand) :
    Json.Reads (.array [.string kind, operand]) := by
  refine Json.reads_array fun item member => ?_
  rcases List.mem_pair.mp member with rfl | rfl
  · exact Json.reads_string kind
  · exact reads

theorem reads_toJson {ty : Ty} (ordered : ty.Ordered) : Json.Reads ty.toJson := by
  induction ty with
  | dynamic | bool | number | string => exact Json.reads_string _
  | list element ih | set element ih | map element ih =>
      exact reads_structural (ih ((ordered_iff.mp ordered).2 element (by simp [children])))
  | object attributes ih =>
      obtain ⟨sorted, inside⟩ := ordered_iff.mp ordered
      rw [toJson, attributesToJson_eq]
      refine reads_structural (Json.reads_object ((Dict.sorted_map toJson).mpr sorted) ?_)
      intro field member
      obtain ⟨attribute', here, rfl⟩ := List.mem_map.mp member
      exact ih attribute' here (inside _ (List.mem_map_of_mem here))
  | tuple elements ih =>
      obtain ⟨-, inside⟩ := ordered_iff.mp ordered
      rw [toJson, elementsToJson_eq]
      refine reads_structural (Json.reads_array ?_)
      intro item member
      obtain ⟨element, here, rfl⟩ := List.mem_map.mp member
      exact ih element here (inside element here)

theorem ofBytes_toBytes {ty : Ty} (ordered : ty.Ordered)
    (shallow : ty.toJson.depth ≤ Json.depthLimit) :
    ofBytes ty.toBytes = .ok ty := by
  rw [ofBytes, toBytes, (Json.parse_render (reads_toJson ordered)).1 shallow]
  exact ofJson_toJson ty

theorem ofBytes_of_deep {ty : Ty} (ordered : ty.Ordered)
    (deep : Json.depthLimit < ty.toJson.depth) :
    ∃ error, ofBytes ty.toBytes = .error (.document error) ∧ error.fault = .recursionLimit := by
  obtain ⟨error, failed, fault⟩ := (Json.parse_render (reads_toJson ordered)).2 deep
  exact ⟨error, by rw [ofBytes, toBytes, failed], fault⟩

/-- What the operands of a kind come to. -/
inductive Operands (kind : String) : List Json → Ty → Prop where
  | element {structural : Ty → Ty} {document : Json} {element : Ty}
      (named : ofElement? kind = some structural) (noted : ofJson document = .ok element) :
      Operands kind [document] (structural element)
  | object {fields : List (String × Json)} {optional : List Json}
      {attributes : List (String × Ty)} (named : kind = "object")
      (listed : optional = [] ∨ ∃ names, optional = [.array names])
      (noted : ofAttributes fields = .ok attributes) :
      Operands kind (.object fields :: optional) (object attributes)
  | tuple {items : List Json} {elements : List Ty} (named : kind = "tuple")
      (noted : ofElements items = .ok elements) : Operands kind [.array items] (tuple elements)

/-- Operands that were read are one of three forms. -/
theorem operands_of_ofOperands {kind : String} {operands : List Json} {ty : Ty}
    (done : ofOperands kind operands = .ok ty) : Operands kind operands ty := by
  unfold ofOperands at done
  split at done
  · rename_i structural named
    split at done
    · obtain ⟨element, noted, rfl⟩ := Wire.map_eq_ok.mp done
      exact .element named noted
    · cases done
  split at done
  · rename_i named
    split at done
    · obtain ⟨attributes, noted, rfl⟩ := Wire.map_eq_ok.mp done
      exact .object named (.inl rfl) noted
    · obtain ⟨attributes, noted, rfl⟩ := Wire.map_eq_ok.mp done
      exact .object named (.inr ⟨_, rfl⟩) noted
    · cases done
  split at done
  · rename_i named
    split at done
    · obtain ⟨elements, noted, rfl⟩ := Wire.map_eq_ok.mp done
      exact .tuple named noted
    · cases done
  · cases done

theorem ofElements_cons_ok {item : Json} {rest : List Json} {elements : List Ty}
    (done : ofElements (item :: rest) = .ok elements) :
    ∃ element more, ofJson item = .ok element ∧ ofElements rest = .ok more ∧
      elements = element :: more := by
  rw [ofElements] at done
  cases first : ofJson item with
  | error fault => simp [first, bind, Except.bind] at done
  | ok element =>
      cases others : ofElements rest with
      | error fault => simp [first, others, bind, Except.bind] at done
      | ok more =>
          simp only [first, others, bind, Except.bind, pure, Except.pure] at done
          exact ⟨element, more, rfl, rfl, (Except.ok.inj done).symm⟩

theorem ofAttributes_cons_ok {name : String} {document : Json} {rest : List (String × Json)}
    {attributes : List (String × Ty)}
    (done : ofAttributes ((name, document) :: rest) = .ok attributes) :
    ∃ ty more, ofJson document = .ok ty ∧ ofAttributes rest = .ok more ∧
      attributes = (name, ty) :: more := by
  rw [ofAttributes] at done
  cases first : ofJson document with
  | error fault => simp [first, bind, Except.bind] at done
  | ok ty =>
      cases others : ofAttributes rest with
      | error fault => simp [first, others, bind, Except.bind] at done
      | ok more =>
          simp only [first, others, bind, Except.bind, pure, Except.pure] at done
          exact ⟨ty, more, rfl, rfl, (Except.ok.inj done).symm⟩

/-- What a document notes is ordered, be it a type, a list of types or types by name. -/
structure NotesOrdered (document : Json) : Prop where
  type : ∀ ty, ofJson document = .ok ty → ty.Ordered
  elements : ∀ items elements, document = .array items → ofElements items = .ok elements →
    (tuple elements).Ordered
  attributes : ∀ fields attributes, document = .object fields →
    ofAttributes fields = .ok attributes → (object attributes).Ordered

theorem ordered_element {kind : String} {structural : Ty → Ty} {element : Ty}
    (named : ofElement? kind = some structural) (ordered : element.Ordered) :
    (structural element).Ordered := by
  have children : (structural element).children = [element] ∧
      (structural element).NamesAscend := by
    rw [ofElement?] at named
    split at named
    · cases named
      exact ⟨rfl, trivial⟩
    split at named
    · cases named
      exact ⟨rfl, trivial⟩
    split at named
    · cases named
      exact ⟨rfl, trivial⟩
    · cases named
  apply ordered_iff.mpr
  rw [children.1]
  exact ⟨children.2, by simpa using ordered⟩

theorem ordered_of_ofOperands {kind : String} {operands : List Json} {ty : Ty}
    (each : ∀ operand ∈ operands, NotesOrdered operand)
    (done : ofOperands kind operands = .ok ty) : ty.Ordered := by
  cases operands_of_ofOperands done with
  | element named noted => exact ordered_element named ((each _ (by simp)).type _ noted)
  | object named listed noted => exact (each _ (by simp)).attributes _ _ rfl noted
  | tuple named noted => exact (each _ (by simp)).elements _ _ rfl noted

theorem ordered_of_ofElements {items : List Json} {elements : List Ty}
    (each : ∀ item ∈ items, NotesOrdered item) (done : ofElements items = .ok elements) :
    ∀ element ∈ elements, element.Ordered := by
  induction items generalizing elements with
  | nil =>
      cases done
      exact List.forall_mem_nil _
  | cons item rest ih =>
      rw [List.forall_mem_cons] at each
      obtain ⟨element, more, first, others, rfl⟩ := ofElements_cons_ok done
      exact List.forall_mem_cons.mpr ⟨each.1.type element first, ih each.2 others⟩

theorem ordered_of_ofAttributes {fields : List (String × Json)} {attributes : List (String × Ty)}
    (each : ∀ field ∈ fields, NotesOrdered field.2) (done : ofAttributes fields = .ok attributes) :
    Dict.keys attributes = Dict.keys fields ∧ ∀ named ∈ attributes, named.2.Ordered := by
  induction fields generalizing attributes with
  | nil =>
      cases done
      exact ⟨rfl, List.forall_mem_nil _⟩
  | cons field rest ih =>
      rw [List.forall_mem_cons] at each
      obtain ⟨ty, more, first, others, rfl⟩ := ofAttributes_cons_ok done
      obtain ⟨names, inside⟩ := ih each.2 others
      exact ⟨by rw [Dict.keys_cons, Dict.keys_cons, names],
        List.forall_mem_cons.mpr ⟨each.1.type ty first, inside⟩⟩

theorem notesOrdered_of_canonical {document : Json} (canonical : Json.Canonical document) :
    NotesOrdered document := by
  induction canonical with
  | null | bool | integer | float => exact ⟨nofun, nofun, nofun⟩
  | string text =>
      refine ⟨fun ty done => ?_, nofun, nofun⟩
      have named : ofPrimitive text = .ok ty := done
      unfold ofPrimitive at named
      repeat' split at named
      all_goals
        cases named
        try exact ordered_iff.mpr ⟨trivial, List.forall_mem_nil _⟩
  | @array items _ ih =>
      refine ⟨fun ty done => ?_, fun others elements same done => ?_, nofun⟩
      · unfold ofJson at done
        split at done
        · rename_i name same
          cases same
        · rename_i kind operands same
          cases same
          exact ordered_of_ofOperands (List.forall_mem_cons.mp ih).2 done
        · cases done
        · cases done
      · cases same
        exact ordered_iff.mpr ⟨trivial, ordered_of_ofElements ih done⟩
  | @object fields sorted _ ih =>
      refine ⟨nofun, nofun, fun others attributes same done => ?_⟩
      cases same
      obtain ⟨names, inside⟩ := ordered_of_ofAttributes ih done
      refine ordered_iff.mpr ⟨?_, List.forall_mem_map.mpr inside⟩
      rw [NamesAscend, Dict.Sorted, names]
      exact sorted

/-- The names in a type that was read from bytes ascend. -/
theorem ordered_of_ofBytes {bytes : List UInt8} {ty : Ty} (done : ofBytes bytes = .ok ty) :
    ty.Ordered := by
  rw [ofBytes] at done
  split at done
  · rename_i document parsed
    exact (notesOrdered_of_canonical (Json.canonical_of_parse parsed)).type ty done
  · cases done

end ScriptHost.Ty
