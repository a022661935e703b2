import ScriptHost.Proofs.Json.Canonical
import ScriptHost.Proofs.Parts

set_option autoImplicit false

namespace ScriptHost.Json

mutual

/-- The document with the fields of every object in the order of their names. -/
def collated : Json → Json
  | array items => array (collatedItems items)
  | object fields => object (Dict.ofList (collatedFields fields))
  | document => document

def collatedItems : List Json → List Json
  | [] => []
  | item :: rest => item.collated :: collatedItems rest

def collatedFields : List (String × Json) → List (String × Json)
  | [] => []
  | (name, document) :: rest => (name, document.collated) :: collatedFields rest

end

theorem collatedItems_eq (items : List Json) : collatedItems items = items.map collated :=
  eq_map_of_cons rfl (fun _ _ => rfl) items

theorem collatedFields_eq (fields : List (String × Json)) :
    collatedFields fields = fields.map fun field => (field.1, field.2.collated) :=
  eq_map_of_cons rfl (fun _ _ => rfl) fields

@[simp] theorem collated_array (items : List Json) :
    (array items).collated = array (items.map collated) := by
  rw [collated, collatedItems_eq]

theorem collated_object (fields : List (String × Json)) :
    (object fields).collated =
      object (Dict.ofList (fields.map fun field => (field.1, field.2.collated))) := by
  rw [collated, collatedFields_eq]

@[simp] theorem collated_string (text : String) : (string text).collated = string text := rfl

@[simp] theorem collated_bool (b : Bool) : (bool b).collated = bool b := rfl

/-- Documents that can be read from their texts: integers are words, with a sign or without one, and
floats are finite. -/
inductive Writable : Json → Prop
  | null : Writable null
  | bool (value : Bool) : Writable (bool value)
  | integer {n : Int} (least : -0x8000000000000000 ≤ n) (greatest : n < 0x10000000000000000) :
      Writable (integer n)
  | float {x : Binary64} (finite : x.isFinite = true) : Writable (float x)
  | string (text : String) : Writable (string text)
  | array {items : List Json} (each : ∀ item ∈ items, Writable item) : Writable (array items)
  | object {fields : List (String × Json)} (each : ∀ field ∈ fields, Writable field.2) :
      Writable (object fields)

attribute [simp] Writable.bool Writable.string

@[simp] theorem writable_array {items : List Json} :
    Writable (array items) ↔ ∀ item ∈ items, Writable item :=
  ⟨fun | .array each => each, .array⟩

@[simp] theorem writable_object {fields : List (String × Json)} :
    Writable (object fields) ↔ ∀ field ∈ fields, Writable field.2 :=
  ⟨fun | .object each => each, .object⟩

/-- The text of a document is read with the fields in the order of their names. -/
theorem Writable.readsAs {document : Json} (writable : Writable document) :
    ReadsAs document document.collated := by
  induction writable with
  | null => exact reads_null
  | bool value => exact reads_bool value
  | integer least greatest => exact reads_integer least greatest
  | float finite => exact reads_float finite
  | string text => exact reads_string text
  | array _ ih =>
      rw [collated_array]
      exact readsAs_array ih
  | object _ ih =>
      rw [collated_object]
      exact readsAs_object ih

theorem Writable.parse_render {document : Json} (writable : Writable document)
    (shallow : document.depth ≤ depthLimit) : parse document.render = .ok document.collated :=
  (parse_render_as writable.readsAs).1 shallow

end ScriptHost.Json
