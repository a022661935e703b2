import ScriptHost.Proofs.Wire.Inferred

set_option autoImplicit false

namespace ScriptHost

theorem fits_of_ty_le {value : Value} {ty : Ty} (ordered : value.Ordered) (agree : value.SetsAgree)
    (below : value.ty ≤ ty) : Fits value ty :=
  bears value ordered ty below fun _ _ forces => absurd forces agree.not_forces

/-- The type of a container with one element type is above the types of all that it holds. -/
theorem ty_le_element {value : Value} {element : Ty} (agrees : value.ItemsAgree)
    (typed : value.ty = .list element ∨ value.ty = .set element ∨ value.ty = .map element) :
    ∀ child ∈ value.children, child.ty ≤ element := by
  cases value with
  | list items =>
      rw [Value.ty_list] at typed
      split at typed
      · rename_i common shared
        obtain rfl : common = element := by simpa using typed
        exact fun item member => Ty.le_common shared (List.mem_map_of_mem member)
      · simp at typed
  | set items =>
      obtain ⟨common, shared⟩ := Option.ne_none_iff_exists'.mp agrees
      rw [Value.ty_set, shared] at typed
      obtain rfl : common = element := by simpa using typed
      exact fun item member => Ty.le_common shared (List.mem_map_of_mem member)
  | map entries =>
      rw [Value.ty_map] at typed
      split at typed
      · rename_i common shared
        obtain rfl : common = element := by simpa using typed
        exact List.forall_mem_map.mpr fun entry member =>
          Ty.le_common shared (List.mem_map_of_mem member)
      · simp at typed
  | tuple items => simp [Value.ty_tuple] at typed
  | object entries => simp [Value.ty_object] at typed
  | _ => exact List.forall_mem_nil _

namespace Wire.Binary

/-- A value whose sets have common types is written under every type above its own, unless a number
inside is NaN. So is all that a list, a set or a map holds under the common type chosen for it. -/
theorem encode_specialised {value : Value} (ordered : value.Ordered) (agree : value.SetsAgree) :
    (∀ ty, value.ty ≤ ty → ((∃ bytes, encode value ty = .ok bytes) ↔ ¬ value.HasNaN)) ∧
      ∀ element, value.ty = .list element ∨ value.ty = .set element ∨ value.ty = .map element →
        ∀ child ∈ value.children, child.ty ≤ element ∧
          ((∃ bytes, encode child element = .ok bytes) ↔ ¬ child.HasNaN) := by
  have encodes {value : Value} {ty : Ty} (ordered : value.Ordered) (agree : value.SetsAgree)
      (below : value.ty ≤ ty) : (∃ bytes, encode value ty = .ok bytes) ↔ ¬ value.HasNaN := by
    have documents : (∃ raw, document value ty = .ok raw) ↔ ¬ value.HasNaN := by
      rw [exists_document_iff ordered, and_iff_right (fits_of_ty_le ordered agree below)]
    rw [← documents]
    constructor
    · rintro ⟨_, written⟩
      obtain ⟨raw, made, -⟩ := map_eq_ok.mp written
      exact ⟨raw, made⟩
    · rintro ⟨raw, made⟩
      exact ⟨raw.write, map_eq_ok.mpr ⟨raw, made, rfl⟩⟩
  refine ⟨fun ty => encodes ordered agree, fun element typed child member => ?_⟩
  obtain ⟨agrees, inside⟩ := Value.setsAgree_iff.mp agree
  have below := ty_le_element agrees typed child member
  exact ⟨below, encodes ((Value.ordered_iff.mp ordered).2 child member) (inside child member) below⟩

/-- A null, an empty list and an unknown value are written under types of their own, and a set takes
over the element type of the set beside it. -/
theorem encode_specialised_siblings :
    let value := Value.tuple
      [.null, .list [], .list [.set [.null], .set [.unknown .dynamic, .bool true]]]
    let ty := Ty.tuple [.map .number, .list (.tuple [.dynamic]), .list (.set .bool)]
    value.ty ≤ ty ∧ ∃ bytes, encode value ty = .ok bytes := by
  intro value ty
  have ordered : value.Ordered := by
    intro part member
    fin_cases member
    case «7» => exact Value.ordered_dynamic
    all_goals trivial
  have nulls : Ty.common [.dynamic] ≠ none := by decide
  have booleans : Ty.common [.dynamic, .bool] ≠ none := by decide
  have agree : value.SetsAgree := by
    intro part member
    fin_cases member
    case «4» => exact nulls
    case «6» => exact booleans
    all_goals trivial
  have below : value.ty ≤ ty := by
    show Ty.Le (.tuple [.dynamic, .list .dynamic, .list (.set .bool)]) ty
    simp [ty, Ty.Le, Ty.LeElements]
  have numbers : ¬ value.HasNaN := by
    rintro ⟨x, member, _⟩
    simp [value, Value.parts, Value.partsOfItems] at member
  exact ⟨below, ((encode_specialised ordered agree).1 ty below).mpr numbers⟩

end Wire.Binary

end ScriptHost
