import ScriptHost.Proofs.MsgPack.RoundTrip
import ScriptHost.Proofs.Number.Integral
import ScriptHost.Proofs.Ty.Notation
import ScriptHost.Proofs.Wire.Places

set_option autoImplicit false

namespace ScriptHost.Value

/-- The shape of a value where any type may stand. -/
def reshapeUnder (value : Value) (reshape : Ty → Value) (ty : Ty) : Value :=
  match ty with
  | .dynamic =>
      match value with
      | null => null
      | unknown .dynamic => unknown .dynamic
      | _ => reshape value.ty
  | _ => reshape ty

/-- The sequence that a type names. -/
def reshapeItems (items : List (Ty → Value)) : Ty → Value
  | .list element => list (items.map (· element))
  | .set element => set (items.map (· element))
  | .tuple elements => tuple (List.zipWith (fun reshape element => reshape element) items elements)
  | _ => null

/-- The collection that a type names; attributes without an entry are null. -/
def reshapeEntries (entries : List (String × (Ty → Value))) : Ty → Value
  | .map element => map (entries.map fun (key, reshape) => (key, reshape element))
  | .object attributes =>
      object (attributes.map fun (name, declared) =>
        (name, match Dict.get? entries name with
          | some reshape => reshape declared
          | none => null))
  | _ => null

mutual

/-- A value in the shape of a type other than dynamic; zeros lose their sign. -/
def reshape : Value → Ty → Value
  | null, _ => null
  | bool b, _ => bool b
  | number x, _ => number x.unsignZero
  | string text, _ => string text
  | list items, ty | set items, ty | tuple items, ty => reshapeItems (reshapers items) ty
  | map entries, ty | object entries, ty => reshapeEntries (entryReshapers entries) ty
  | unknown _, ty => unknown ty

def reshapers : List Value → List (Ty → Value)
  | [] => []
  | item :: rest => reshapeUnder item (reshape item) :: reshapers rest

def entryReshapers : List (String × Value) → List (String × (Ty → Value))
  | [] => []
  | (key, value) :: rest => (key, reshapeUnder value (reshape value)) :: entryReshapers rest

end

/-- A value in the shape of any type. -/
def reshaped (value : Value) (ty : Ty) : Value := reshapeUnder value (reshape value) ty

theorem reshapers_eq (items : List Value) : reshapers items = items.map reshaped :=
  eq_map_of_cons rfl (fun _ _ => rfl) items

theorem entryReshapers_eq (entries : List (String × Value)) :
    entryReshapers entries = entries.map fun entry => (entry.1, reshaped entry.2) :=
  eq_map_of_cons rfl (fun _ _ => rfl) entries

theorem reshaped_of_typed {ty : Ty} (value : Value) (typed : ty ≠ .dynamic) :
    reshaped value ty = reshape value ty := by
  cases ty <;> first | rfl | exact absurd rfl typed

theorem reshaped_dynamic {value : Value} (typed : value.ty ≠ .dynamic) :
    reshaped value .dynamic = reshape value value.ty := by
  unfold reshaped reshapeUnder
  split
  · split
    · exact absurd rfl typed
    · exact absurd rfl typed
    · rfl
  · rename_i other
    exact absurd rfl other

theorem reshaped_null (ty : Ty) : reshaped null ty = null := by
  cases ty <;> rfl

theorem reshapeItems_of_places {items : List Value} {ty : Ty} {types : List Ty}
    (places : ty.itemTypes? items.length = some types) :
    reshapeItems (reshapers items) ty =
      sequenceOf ty (List.zipWith reshaped items types) := by
  rw [reshapers_eq]
  obtain ⟨element, rfl | rfl, rfl⟩ | ⟨rfl, -⟩ := Ty.itemTypes?_eq_some.mp places
  · rw [Wire.zipWith_replicate, reshapeItems, List.map_map]
    rfl
  · rw [Wire.zipWith_replicate, reshapeItems, List.map_map]
    rfl
  · rw [reshapeItems, Wire.zipWith_apply]
    rfl

theorem reshapeEntries_of_places {entries : List (String × Value)} {ty : Ty}
    {fields : List (String × Ty)} (sorted : Dict.Sorted entries)
    (places : ty.entryTypes? (Dict.keys entries) = some fields) :
    reshapeEntries (entryReshapers entries) ty =
      collectionOf ty (fields.map fun field =>
        (field.1, reshaped (entry entries field.1) field.2)) := by
  rw [entryReshapers_eq]
  obtain ⟨element, rfl, rfl⟩ | ⟨rfl, -⟩ := Ty.entryTypes?_eq_some.mp places
  · rw [reshapeEntries, List.map_map, Dict.keys, List.map_map, List.map_map, collectionOf]
    congr 1
    refine List.map_congr_left fun field member => ?_
    simp [Wire.entry_of_mem sorted member]
  · rw [reshapeEntries]
    refine congrArg object ?_
    refine List.map_congr_left fun field _ => ?_
    simp only [Dict.get?_map, entry]
    cases Dict.get? entries field.1 with
    | none => simp [reshaped_null]
    | some value => rfl

end ScriptHost.Value

namespace ScriptHost.Wire.Binary

/-- A zero is written as an integer, whatever its sign. -/
theorem writeNumber_unsignZero (x : Binary64) : writeNumber x.unsignZero = writeNumber x := by
  unfold writeNumber
  rw [Binary64.isNaN_unsignZero, Binary64.integral_unsignZero]
  cases whole : x.integral with
  | some n => rfl
  | none => rw [Binary64.unsignZero_of_integral_eq_none whole]

end ScriptHost.Wire.Binary
