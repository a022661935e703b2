import ScriptHost.Proofs.Ty.Notation

set_option autoImplicit false

namespace ScriptHost.Ty

/-- What a document stands for in a notation. -/
inductive Role where
  | type
  | attributes
  | elements
  | other

/-- The role of what follows the kind of a structural type. -/
def Role.behind (kind : String) : Role :=
  if kind = "list" ∨ kind = "set" ∨ kind = "map" then type
  else if kind = "object" then attributes
  else if kind = "tuple" then elements
  else other

/-- What follows the first operand, less the list of optional attributes of an object type. -/
def strippedRest (kind : String) : List Json → List Json
  | [.array names] => if kind = "object" then [] else [.array names]
  | rest => rest

mutual

/-- A document in a role, less the lists of optional attributes of the object types in it. -/
def stripped : Role → Json → Json
  | .type, .array parts => .array (strippedParts parts)
  | .attributes, .object fields => .object (strippedFields fields)
  | .elements, .array items => .array (strippedItems items)
  | _, document => document

def strippedParts : List Json → List Json
  | .string kind :: operand :: rest =>
      .string kind :: stripped (.behind kind) operand :: strippedRest kind rest
  | parts => parts

def strippedFields : List (String × Json) → List (String × Json)
  | [] => []
  | (name, document) :: rest => (name, stripped .type document) :: strippedFields rest

def strippedItems : List Json → List Json
  | [] => []
  | item :: rest => stripped .type item :: strippedItems rest

end

theorem stripped_other (document : Json) : stripped .other document = document := by
  cases document <;> rfl

theorem strippedRest_of_ne {kind : String} (other : kind ≠ "object") (rest : List Json) :
    strippedRest kind rest = rest := by
  unfold strippedRest
  split
  · exact if_neg other
  · rfl

theorem ofElement?_eq_none_iff {kind : String} :
    ofElement? kind = none ↔ ¬(kind = "list" ∨ kind = "set" ∨ kind = "map") := by
  rw [ofElement?]
  split_ifs <;> simp_all

theorem behind_of_ofElement? {kind : String} {structural : Ty → Ty}
    (named : ofElement? kind = some structural) :
    Role.behind kind = .type ∧ kind ≠ "object" := by
  have kinds : kind = "list" ∨ kind = "set" ∨ kind = "map" := by
    by_contra others
    rw [ofElement?_eq_none_iff.mpr others] at named
    cases named
  refine ⟨if_pos kinds, ?_⟩
  rintro rfl
  revert kinds
  decide

/-- A document is read like the stripped one, be it a type, types by name or a list of types. -/
structure ReadStripped (document : Json) : Prop where
  type : ofJson (stripped .type document) = ofJson document
  attributes : ∀ fields, document = .object fields →
    ofAttributes (strippedFields fields) = ofAttributes fields
  elements : ∀ items, document = .array items → ofElements (strippedItems items) = ofElements items

theorem ofOperands_element_stripped {kind : String} {structural : Ty → Ty} {operand : Json}
    (named : ofElement? kind = some structural) (rest : List Json)
    (alike : ReadStripped operand) :
    ofOperands kind (stripped .type operand :: rest) = ofOperands kind (operand :: rest) := by
  unfold ofOperands
  rw [named]
  cases rest with
  | nil => exact congrArg (Except.map structural) alike.type
  | cons next more => rfl

theorem ofOperands_object_stripped {operand : Json} (rest : List Json)
    (alike : ReadStripped operand) :
    ofOperands "object" (stripped .attributes operand :: strippedRest "object" rest) =
      ofOperands "object" (operand :: rest) := by
  cases operand with
  | object fields =>
      have same : (ofAttributes (strippedFields fields)).map object =
          (ofAttributes fields).map object := by rw [alike.attributes fields rfl]
      -- a list is skipped in the third place alone, and only where nothing follows it
      rcases rest with _ | ⟨next, _ | ⟨last, more⟩⟩
      · exact same
      · cases next with
        | array names => exact same
        | _ => rfl
      · cases next <;> rfl
  | _ =>
      unfold ofOperands
      simp [ofElement?, stripped]

theorem ofOperands_tuple_stripped {operand : Json} (rest : List Json)
    (alike : ReadStripped operand) :
    ofOperands "tuple" (stripped .elements operand :: rest) =
      ofOperands "tuple" (operand :: rest) := by
  cases operand with
  | array items =>
      cases rest with
      | nil => exact congrArg (Except.map tuple) (alike.elements items rfl)
      | cons next more => rfl
  | _ => rfl

theorem ofOperands_stripped {operand : Json} (kind : String) (rest : List Json)
    (alike : ReadStripped operand) :
    ofOperands kind (stripped (.behind kind) operand :: strippedRest kind rest) =
      ofOperands kind (operand :: rest) := by
  cases named : ofElement? kind with
  | some structural =>
      obtain ⟨role, other⟩ := behind_of_ofElement? named
      rw [role, strippedRest_of_ne other]
      exact ofOperands_element_stripped named rest alike
  | none =>
      by_cases object : kind = "object"
      · subst object
        exact ofOperands_object_stripped rest alike
      rw [strippedRest_of_ne object]
      by_cases tuple : kind = "tuple"
      · subst tuple
        exact ofOperands_tuple_stripped rest alike
      · have other : Role.behind kind = .other := by
          rw [Role.behind, if_neg (ofElement?_eq_none_iff.mp named), if_neg object, if_neg tuple]
        rw [other, stripped_other]

theorem ofElements_stripped {items : List Json} (alike : ∀ item ∈ items, ReadStripped item) :
    ofElements (strippedItems items) = ofElements items := by
  induction items with
  | nil => rfl
  | cons item rest ih =>
      obtain ⟨first, others⟩ := List.forall_mem_cons.mp alike
      rw [strippedItems, ofElements, ofElements, first.type, ih others]

theorem ofAttributes_stripped {fields : List (String × Json)}
    (alike : ∀ field ∈ fields, ReadStripped field.2) :
    ofAttributes (strippedFields fields) = ofAttributes fields := by
  induction fields with
  | nil => rfl
  | cons field rest ih =>
      obtain ⟨first, others⟩ := List.forall_mem_cons.mp alike
      rw [strippedFields, ofAttributes, ofAttributes, first.type, ih others]

theorem ofParts_stripped {parts : List Json} (alike : ∀ part ∈ parts, ReadStripped part) :
    ofJson (.array (strippedParts parts)) = ofJson (.array parts) := by
  unfold strippedParts
  split
  · rename_i kind operand rest
    exact ofOperands_stripped kind rest (alike operand (by simp))
  · rfl

theorem readStripped (document : Json) : ReadStripped document := by
  induction document with
  | null | bool | integer | float | string => exact ⟨rfl, nofun, nofun⟩
  | array items ih =>
      refine ⟨ofParts_stripped ih, nofun, fun others same => ?_⟩
      cases same
      exact ofElements_stripped ih
  | object fields ih =>
      refine ⟨rfl, fun others same => ?_, nofun⟩
      cases same
      exact ofAttributes_stripped ih

/-- What was read from a document is what the stripped one notes, be it a type, types by name or a
list of types. -/
structure NotesRead (document : Json) : Prop where
  type : ∀ ty, ofJson document = .ok ty → stripped .type document = ty.toJson
  attributes : ∀ fields attributes, document = .object fields →
    ofAttributes fields = .ok attributes → strippedFields fields = attributesToJson attributes
  elements : ∀ items elements, document = .array items → ofElements items = .ok elements →
    strippedItems items = elementsToJson elements

theorem toJson_of_ofPrimitive {name : String} {ty : Ty} (done : ofPrimitive name = .ok ty) :
    ty.toJson = .string name := by
  rw [ofPrimitive] at done
  split_ifs at done with text number bool dynamic
  all_goals
    cases done
    rw [toJson]
    simp_all

theorem toJson_of_ofElement? {kind : String} {structural : Ty → Ty}
    (named : ofElement? kind = some structural) (element : Ty) :
    (structural element).toJson = .array [.string kind, element.toJson] := by
  rw [ofElement?] at named
  split_ifs at named with list set map
  all_goals
    cases named
    rw [toJson]
    simp_all

theorem strippedParts_of_ofOperands {kind : String} {operands : List Json} {ty : Ty}
    (notes : ∀ operand ∈ operands, NotesRead operand)
    (done : ofOperands kind operands = .ok ty) :
    .array (strippedParts (.string kind :: operands)) = ty.toJson := by
  cases operands_of_ofOperands done with
  | @element structural document element named noted =>
      obtain ⟨role, other⟩ := behind_of_ofElement? named
      rw [strippedParts, role, strippedRest_of_ne other, (notes _ (by simp)).type _ noted,
        toJson_of_ofElement? named]
  | @object fields optional attributes named listed noted =>
      subst named
      have same := (notes _ (by simp)).attributes _ _ rfl noted
      have nothing : strippedRest "object" optional = [] := by
        rcases listed with rfl | ⟨names, rfl⟩ <;> rfl
      rw [strippedParts, nothing, toJson, ← same]
      rfl
  | @tuple items elements named noted =>
      subst named
      have same := (notes _ (by simp)).elements _ _ rfl noted
      rw [strippedParts, toJson, ← same]
      rfl

theorem strippedItems_of_ofElements {items : List Json} {elements : List Ty}
    (notes : ∀ item ∈ items, NotesRead item) (done : ofElements items = .ok elements) :
    strippedItems items = elementsToJson elements := by
  induction items generalizing elements with
  | nil =>
      cases done
      rfl
  | cons item rest ih =>
      rw [List.forall_mem_cons] at notes
      obtain ⟨element, more, first, others, rfl⟩ := ofElements_cons_ok done
      rw [strippedItems, elementsToJson, notes.1.type element first, ih notes.2 others]

theorem strippedFields_of_ofAttributes {fields : List (String × Json)}
    {attributes : List (String × Ty)} (notes : ∀ field ∈ fields, NotesRead field.2)
    (done : ofAttributes fields = .ok attributes) :
    strippedFields fields = attributesToJson attributes := by
  induction fields generalizing attributes with
  | nil =>
      cases done
      rfl
  | cons field rest ih =>
      rw [List.forall_mem_cons] at notes
      obtain ⟨ty, more, first, others, rfl⟩ := ofAttributes_cons_ok done
      rw [strippedFields, attributesToJson, notes.1.type ty first, ih notes.2 others]

theorem notesRead (document : Json) : NotesRead document := by
  induction document with
  | null | bool | integer | float => exact ⟨nofun, nofun, nofun⟩
  | string name =>
      refine ⟨fun ty done => ?_, nofun, nofun⟩
      exact (toJson_of_ofPrimitive done).symm
  | array items ih =>
      refine ⟨fun ty done => ?_, nofun, fun others elements same done => ?_⟩
      · rw [stripped]
        unfold ofJson at done
        split at done
        · rename_i name same
          cases same
        · rename_i kind operands same
          cases same
          exact strippedParts_of_ofOperands (List.forall_mem_cons.mp ih).2 done
        · cases done
        · cases done
      · cases same
        exact strippedItems_of_ofElements ih done
  | object fields ih =>
      refine ⟨nofun, fun others attributes same done => ?_, nofun⟩
      cases same
      exact strippedFields_of_ofAttributes ih done

/-- A document is read as a type exactly if the stripped one is the notation of that type. So no two
types share a notation, a document with nothing to strip is the notation of what is read from it,
and a document that is no notation when stripped is refused. -/
theorem ofJson_accepts_notations (document : Json) :
    (∀ ty : Ty, ofJson document = .ok ty ↔ stripped .type document = ty.toJson) ∧
      Function.Injective toJson ∧
      (stripped .type document = document →
        ∀ ty, ofJson document = .ok ty → ty.toJson = document) ∧
      ((∀ ty : Ty, stripped .type document ≠ ty.toJson) →
        ∃ fault, ofJson document = .error fault) := by
  have exact (ty : Ty) : ofJson document = .ok ty ↔ stripped .type document = ty.toJson := by
    constructor
    · exact (notesRead document).type ty
    · intro noted
      -- the reader finds in the document what it finds in the notation
      rw [← (readStripped document).type, noted, ofJson_toJson]
  refine ⟨exact, toJson_injective, fun bare ty read => ?_, fun none => ?_⟩
  · rw [← (exact ty).mp read, bare]
  · cases outcome : ofJson document with
    | error fault => exact ⟨fault, rfl⟩
    | ok ty => exact absurd ((exact ty).mp outcome) (none ty)

/-- A list of optional attributes is skipped behind attributes, and nowhere else. -/
theorem ofJson_accepts_notations_optional :
    ofJson (.array [.string "list", .array [.string "object", .object [("a", .string "bool")],
        .array [.string "a"]]]) = .ok (list (object [("a", bool)])) ∧
      toJson (list (object [("a", bool)])) = .array [.string "list",
        .array [.string "object", .object [("a", .string "bool")]]] ∧
      ∃ fault, ofJson (.array [.string "tuple", .array [], .array []]) = .error fault := by
  refine ⟨?_, ?_, ?_⟩
  · apply ((ofJson_accepts_notations _).1 _).mpr
    rfl
  · apply (ofJson_accepts_notations _).2.2.1
    · rfl
    · rfl
  · apply (ofJson_accepts_notations _).2.2.2
    intro ty same
    have long : stripped .type (.array [.string "tuple", .array [], .array []]) =
        .array [.string "tuple", .array [], .array []] := by rfl
    rw [long] at same
    cases ty <;> simp [toJson] at same

end ScriptHost.Ty
