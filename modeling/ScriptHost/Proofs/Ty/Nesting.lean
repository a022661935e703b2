import ScriptHost.Proofs.Ty.Notation

set_option autoImplicit false

namespace ScriptHost.Ty

mutual

/-- How many containers are around the innermost part of the notation of a type. -/
def nesting : Ty → Nat
  | list element | set element | map element => 1 + element.nesting
  | object attributes => 2 + nestingOfAttributes attributes
  | tuple elements => 2 + nestingOfElements elements
  | _ => 0

def nestingOfElements : List Ty → Nat
  | [] => 0
  | element :: rest => max element.nesting (nestingOfElements rest)

def nestingOfAttributes : List (String × Ty) → Nat
  | [] => 0
  | (_, ty) :: rest => max ty.nesting (nestingOfAttributes rest)

end

theorem depthOfItems_toJson {elements : List Ty}
    (known : ∀ element ∈ elements, element.toJson.depth = element.nesting) :
    Json.depthOfItems (elements.map toJson) = nestingOfElements elements := by
  induction elements with
  | nil => rfl
  | cons element rest ih =>
      obtain ⟨first, others⟩ := List.forall_mem_cons.mp known
      rw [List.map_cons, Json.depthOfItems, nestingOfElements, first, ih others]

theorem depthOfFields_toJson {attributes : List (String × Ty)}
    (known : ∀ field ∈ attributes, field.2.toJson.depth = field.2.nesting) :
    Json.depthOfFields (attributes.map fun field => (field.1, field.2.toJson)) =
      nestingOfAttributes attributes := by
  induction attributes with
  | nil => rfl
  | cons field rest ih =>
      obtain ⟨first, others⟩ := List.forall_mem_cons.mp known
      rw [List.map_cons, Json.depthOfFields, nestingOfAttributes, first, ih others]

/-- The kind of a structural notation is no container. -/
theorem depth_structural (kind : String) (operand : Json) :
    (Json.array [.string kind, operand]).depth = 1 + operand.depth := by
  simp [Json.depth, Json.depthOfItems]

theorem depth_toJson (ty : Ty) : ty.toJson.depth = ty.nesting := by
  induction ty with
  | dynamic | bool | number | string => rfl
  | list element ih | set element ih | map element ih =>
      rw [toJson, depth_structural, ih, nesting]
  | object attributes ih =>
      rw [toJson, attributesToJson_eq, depth_structural, Json.depth, depthOfFields_toJson ih,
        nesting, ← Nat.add_assoc]
  | tuple elements ih =>
      rw [toJson, elementsToJson_eq, depth_structural, Json.depth, depthOfItems_toJson ih, nesting,
        ← Nat.add_assoc]

/-- The text of a type is read back as that type if its containers nest within the limit of the
reader, and refused for their nesting if they do not. -/
theorem ofBytes_toBytes_cases {ty : Ty} (ordered : ty.Ordered) :
    (ty.nesting ≤ 127 → ofBytes ty.toBytes = .ok ty) ∧
      (127 < ty.nesting → ∃ error, ofBytes ty.toBytes = .error (.document error) ∧
        error.fault = .recursionLimit) := by
  rw [← depth_toJson]
  exact ⟨ofBytes_toBytes ordered, ofBytes_of_deep ordered⟩

/-- The name of an attribute is read back with its quote, its backslash and its control character.
-/
theorem ofBytes_toBytes_cases_quoted :
    let ty := object [("a\"\\\x01", list (tuple [bool])), ("é", dynamic)]
    ty.Ordered ∧ ty.nesting = 5 ∧ ofBytes ty.toBytes = .ok ty := by
  intro ty
  have ordered : ty.Ordered := by
    have less : "a\"\\\x01" < "é" := by decide
    simpa [ty, Ordered, parts, partsOfAttributes, partsOfElements, NamesAscend, Dict.Sorted]
      using less
  exact ⟨ordered, rfl, (ofBytes_toBytes_cases ordered).1 (by decide)⟩

end ScriptHost.Ty
