import ScriptHost.Proofs.Dict
import ScriptHost.Proofs.Ty.Unify

set_option autoImplicit false

namespace ScriptHost.Value

theorem ty_list (items : List Value) : (list items).ty =
    match Ty.common (items.map ty) with
    | some element => .list element
    | none => .tuple (items.map ty) := by
  rw [← itemTypes_eq]
  rfl

theorem ty_set (items : List Value) :
    (set items).ty = .set ((Ty.common (items.map ty)).getD .dynamic) := by
  rw [ty, itemTypes_eq]

theorem ty_tuple (items : List Value) : (tuple items).ty = .tuple (items.map ty) := by
  rw [ty, itemTypes_eq]

theorem ty_map (entries : List (String × Value)) : (map entries).ty =
    match Ty.common (entries.map fun entry => entry.2.ty) with
    | some element => .map element
    | none => .object (entries.map fun entry => (entry.1, entry.2.ty)) := by
  rw [ty, entryTypes_eq, List.map_map]
  rfl

theorem ty_object (entries : List (String × Value)) :
    (object entries).ty = .object (entries.map fun entry => (entry.1, entry.2.ty)) := by
  rw [ty, entryTypes_eq]

theorem ty_eq_dynamic {value : Value} (untyped : value.ty = .dynamic) :
    value = null ∨ value = unknown .dynamic := by
  cases value with
  | null => exact .inl rfl
  | unknown ty => exact .inr (by rw [show ty = .dynamic from untyped])
  | list items =>
      rw [ty_list] at untyped
      split at untyped <;> cases untyped
  | map entries =>
      rw [ty_map] at untyped
      split at untyped <;> cases untyped
  | _ => cases untyped

/-- The items of a set have a common type. -/
def ItemsAgree : Value → Prop
  | set items => Ty.common (items.map ty) ≠ none
  | _ => True

/-- The items of every set inside have a common type. -/
def SetsAgree (value : Value) : Prop := ∀ part ∈ value.parts, part.ItemsAgree

theorem setsAgree_iff {value : Value} :
    value.SetsAgree ↔ value.ItemsAgree ∧ ∀ child ∈ value.children, child.SetsAgree :=
  forall_mem_parts

theorem ordered_tuple {types : List Ty} (inside : ∀ t ∈ types, t.Ordered) :
    (Ty.tuple types).Ordered :=
  Ty.ordered_iff.mpr ⟨trivial, inside⟩

theorem ordered_dynamic : Ty.dynamic.Ordered :=
  Ty.ordered_iff.mpr ⟨trivial, List.forall_mem_nil _⟩

theorem ordered_object {entries : List (String × Value)} (sorted : Dict.Sorted entries)
    (inside : ∀ entry ∈ entries, entry.2.ty.Ordered) :
    (Ty.object (entries.map fun entry => (entry.1, entry.2.ty))).Ordered := by
  refine Ty.ordered_iff.mpr ⟨(Dict.sorted_map ty).mpr sorted, fun child member => ?_⟩
  rw [Ty.children, List.map_map] at member
  obtain ⟨entry, here, rfl⟩ := List.mem_map.mp member
  exact inside entry here

theorem ordered_ty {value : Value} (ordered : value.Ordered) : value.ty.Ordered := by
  induction value using childrenInduction with
  | step value ih =>
      obtain ⟨named, children⟩ := ordered_iff.mp ordered
      have inside : ∀ child ∈ value.children, child.ty.Ordered :=
        fun child member => ih child member (children child member)
      cases value with
      | null => exact ordered_dynamic
      | bool b => exact Ty.ordered_iff.mpr ⟨trivial, List.forall_mem_nil _⟩
      | number x => exact Ty.ordered_iff.mpr ⟨trivial, List.forall_mem_nil _⟩
      | string text => exact Ty.ordered_iff.mpr ⟨trivial, List.forall_mem_nil _⟩
      | unknown ty => exact named
      | list items =>
          have types : ∀ t ∈ items.map ty, t.Ordered := List.forall_mem_map.mpr inside
          rw [ty_list]
          split
          · rename_i element shared
            have below := Ty.ordered_of_common shared types
            exact Ty.ordered_iff.mpr ⟨trivial, List.forall_mem_singleton.mpr below⟩
          · exact ordered_tuple types
      | set items =>
          have types : ∀ t ∈ items.map ty, t.Ordered := List.forall_mem_map.mpr inside
          have below : ((Ty.common (items.map ty)).getD .dynamic).Ordered := by
            cases shared : Ty.common (items.map ty) with
            | none => exact ordered_dynamic
            | some element => exact Ty.ordered_of_common shared types
          rw [ty_set]
          exact Ty.ordered_iff.mpr ⟨trivial, List.forall_mem_singleton.mpr below⟩
      | tuple items =>
          rw [ty_tuple]
          exact ordered_tuple (List.forall_mem_map.mpr inside)
      | map entries =>
          have each := List.forall_mem_map.mp inside
          rw [ty_map]
          split
          · rename_i element shared
            have below := Ty.ordered_of_common shared (List.forall_mem_map.mpr each)
            exact Ty.ordered_iff.mpr ⟨trivial, List.forall_mem_singleton.mpr below⟩
          · exact ordered_object named each
      | object entries =>
          have each := List.forall_mem_map.mp inside
          rw [ty_object]
          exact ordered_object named each

end ScriptHost.Value
