import ScriptHost.Engine.Raise
import ScriptHost.Proofs.Json.RoundTrip
import ScriptHost.Proofs.Value.Equal
import ScriptHost.Proofs.Wire.Reshape

set_option autoImplicit false

namespace ScriptHost.Value

/-- Values of scalars, lists with a common type and objects that do not look like lists, with at
most so many containers nested. -/
inductive Stable : Nat → Value → Prop
  | bool (levels : Nat) (b : Bool) : Stable levels (bool b)
  | number (levels : Nat) {x : Binary64} (real : x.isNaN = false) : Stable levels (number x)
  | string (levels : Nat) (text : String) : Stable levels (string text)
  | list {levels : Nat} {items : List Value} (nonempty : items ≠ [])
      (shared : Ty.common (items.map ty) ≠ none) (each : ∀ item ∈ items, Stable levels item) :
      Stable (levels + 1) (list items)
  | object {levels : Nat} {entries : List (String × Value)} (sorted : Dict.Sorted entries)
      (named : ∀ first ≤ 1, ∀ count ≥ 1,
        ¬ ∀ name, name ∈ Dict.keys entries ↔ name ∈ Engine.indexNames first count)
      (each : ∀ entry ∈ entries, Stable levels entry.2) : Stable (levels + 1) (object entries)

section List

variable {items : List Value}

/-- Where types are rigid, a common type is the type of all. -/
theorem ty_list_of_rigid (nonempty : items ≠ []) (shared : Ty.common (items.map ty) ≠ none)
    (rigid : ∀ item ∈ items, item.ty.Rigid) :
    ∃ element, (list items).ty = .list element ∧ element.Rigid ∧
      ∀ item ∈ items, item.ty = element := by
  obtain ⟨element, common⟩ := Option.ne_none_iff_exists'.mp shared
  have same : ∀ item ∈ items, item.ty = element := fun item member =>
    ((rigid item member).eq_of_common common (List.mem_map_of_mem member)).symm
  refine ⟨element, by rw [ty_list, common], ?_, same⟩
  obtain ⟨first, member⟩ := List.exists_mem_of_ne_nil items nonempty
  rw [← same first member]
  exact rigid first member

end List

section Object

variable {entries : List (String × Value)}

theorem rigid_object (rigid : ∀ entry ∈ entries, entry.2.ty.Rigid) : (object entries).ty.Rigid := by
  rw [ty_object]
  refine Ty.rigid_iff.mpr ⟨by simp, fun child member => ?_⟩
  rw [Ty.children, List.map_map] at member
  obtain ⟨entry, here, rfl⟩ := List.mem_map.mp member
  exact rigid entry here

end Object

namespace Stable

variable {levels : Nat} {value : Value}

theorem rigid (stable : Stable levels value) : value.ty.Rigid := by
  induction stable with
  | bool | number | string => exact Ty.rigid_iff.mpr ⟨by simp [ty], by simp [ty, Ty.children]⟩
  | list nonempty shared _ ih =>
      obtain ⟨element, typed, rigid, -⟩ := ty_list_of_rigid nonempty shared ih
      rw [typed]
      exact Ty.rigid_iff.mpr ⟨by simp, by simpa [Ty.children] using rigid⟩
  | object _ _ _ ih => exact rigid_object ih

theorem typed (stable : Stable levels value) : value.ty ≠ .dynamic :=
  (Ty.rigid_iff.mp stable.rigid).1

theorem ordered (stable : Stable levels value) : value.Ordered := by
  induction stable with
  | bool | number | string => exact ordered_iff.mpr ⟨trivial, List.forall_mem_nil _⟩
  | list _ _ _ ih => exact ordered_iff.mpr ⟨trivial, ih⟩
  | object sorted _ _ ih =>
      refine ordered_iff.mpr ⟨sorted, fun child member => ?_⟩
      obtain ⟨entry, here, rfl⟩ := List.mem_map.mp member
      exact ih entry here

theorem known (stable : Stable levels value) : value.Known := by
  induction stable with
  | bool | number | string => exact known_iff.mpr ⟨by simp, List.forall_mem_nil _⟩
  | list _ _ _ ih => exact known_iff.mpr ⟨by simp, ih⟩
  | object _ _ _ ih =>
      refine known_iff.mpr ⟨by simp, fun child member => ?_⟩
      obtain ⟨entry, here, rfl⟩ := List.mem_map.mp member
      exact ih entry here

/-- The notation of a type takes at most two containers for one of the value. -/
theorem depth_le (stable : Stable levels value) : value.ty.toJson.depth ≤ 2 * levels := by
  induction stable with
  | bool | number | string => simp [ty, Ty.toJson, Json.depth]
  | @list levels items nonempty shared each ih =>
      obtain ⟨element, typed, -, same⟩ :=
        ty_list_of_rigid nonempty shared fun item member => (each item member).rigid
      obtain ⟨first, member⟩ := List.exists_mem_of_ne_nil items nonempty
      have inside := ih first member
      rw [same first member] at inside
      rw [typed, Ty.toJson, Json.depth]
      have operands : Json.depthOfItems [.string "list", element.toJson] ≤ 2 * levels := by
        rw [Json.depthOfItems_le_iff]
        simpa [Json.depth] using inside
      omega
  | @object levels entries _ _ _ ih =>
      rw [ty_object, Ty.toJson, Ty.attributesToJson_eq, List.map_map]
      have fields : Json.depthOfFields (entries.map fun entry => (entry.1, entry.2.ty.toJson)) ≤
          2 * levels := by
        rw [Json.depthOfFields_le_iff]
        intro field member
        obtain ⟨entry, here, rfl⟩ := List.mem_map.mp member
        exact ih entry here
      have operands : Json.depthOfItems [.string "object",
          .object (entries.map fun entry => (entry.1, entry.2.ty.toJson))] ≤ 2 * levels + 1 := by
        rw [Json.depthOfItems_le_iff]
        simpa [Json.depth, Nat.add_comm] using fields
      show 1 + Json.depthOfItems _ ≤ _
      exact Nat.le_trans (Nat.add_le_add_left operands 1) (by omega)

end Stable

/-- A value as it comes back under its own type. -/
def own (value : Value) : Value := value.reshape value.ty

theorem reshaped_own {value : Value} (typed : value.ty ≠ .dynamic) :
    value.reshaped value.ty = value.own :=
  reshaped_of_typed value typed

theorem own_list {items : List Value} {element : Ty} (typed : (list items).ty = .list element)
    (known : element ≠ .dynamic) (same : ∀ item ∈ items, item.ty = element) :
    (list items).own = list (items.map own) := by
  rw [own, typed, reshape, reshapeItems, reshapers_eq, List.map_map]
  refine congrArg list (List.map_congr_left fun item member => ?_)
  rw [Function.comp_apply, reshaped_of_typed item known, own, same item member]

theorem entryTypes?_own (entries : List (String × Value)) :
    (object entries).ty.entryTypes? (Dict.keys entries) =
      some (entries.map fun entry => (entry.1, entry.2.ty)) := by
  have names : Dict.keys (entries.map fun entry => (entry.1, entry.2.ty)) = Dict.keys entries :=
    Dict.keys_map (fun entry => entry.2.ty) entries
  rw [ty_object, Ty.entryTypes?, names, if_pos (List.Subset.refl _)]

theorem own_object {entries : List (String × Value)} (sorted : Dict.Sorted entries)
    (known : ∀ entry ∈ entries, entry.2.ty ≠ .dynamic) :
    (object entries).own = object (entries.map fun entry => (entry.1, entry.2.own)) := by
  rw [own, reshape, reshapeEntries_of_places sorted (entryTypes?_own entries), ty_object,
    List.map_map]
  refine congrArg object (List.map_congr_left fun entry member => ?_)
  rw [Function.comp_apply, Wire.entry_of_mem sorted member,
    reshaped_own (known entry member)]

namespace Stable

variable {levels : Nat} {value : Value}

/-- The items of a list have one type, which is their own. -/
theorem own_items {items : List Value} (stable : Stable levels (.list items)) :
    (Value.list items).own = .list (items.map own) := by
  cases stable with
  | list nonempty shared each =>
      obtain ⟨element, typed, rigid, same⟩ :=
        ty_list_of_rigid nonempty shared fun item member => (each item member).rigid
      exact own_list typed (Ty.rigid_iff.mp rigid).1 same

theorem own_entries {entries : List (String × Value)} (stable : Stable levels (.object entries)) :
    (Value.object entries).own = .object (entries.map fun entry => (entry.1, entry.2.own)) := by
  cases stable with
  | object sorted _ each => exact own_object sorted fun entry member => (each entry member).typed

theorem ty_own (stable : Stable levels value) : value.own.ty = value.ty := by
  induction stable with
  | bool | number | string => rfl
  | @list levels items nonempty shared each ih =>
      have types : (items.map Value.own).map ty = items.map ty := by
        rw [List.map_map]
        exact List.map_congr_left ih
      rw [own_items (.list nonempty shared each), ty_list, ty_list, types]
  | object sorted named each ih =>
      rw [own_entries (.object sorted named each), ty_object, ty_object, List.map_map]
      refine congrArg Ty.object (List.map_congr_left fun entry member => ?_)
      rw [Function.comp_apply, ih entry member]

/-- What comes back is of the same kind. -/
theorem own (stable : Stable levels value) : Stable levels value.own := by
  induction stable with
  | bool levels b => exact .bool levels b
  | string levels text => exact .string levels text
  | number levels real => exact .number levels (by rwa [Binary64.isNaN_unsignZero])
  | @list levels items nonempty shared each ih =>
      have types : (items.map Value.own).map ty = items.map ty := by
        rw [List.map_map]
        exact List.map_congr_left fun item member => (each item member).ty_own
      rw [own_items (.list nonempty shared each)]
      exact .list (by simpa using nonempty) (types ▸ shared) (List.forall_mem_map.mpr ih)
  | @object levels entries sorted named each ih =>
      have names : Dict.keys (entries.map fun entry => (entry.1, entry.2.own)) =
          Dict.keys entries := Dict.keys_map (fun entry => entry.2.own) entries
      rw [own_entries (.object sorted named each)]
      exact .object ((Dict.sorted_map Value.own).mpr sorted) (names ▸ named)
        (List.forall_mem_map.mpr ih)

theorem equal_own (stable : Stable levels value) : value.equal value.own = true := by
  induction stable with
  | bool levels b => simp [Value.own, reshape, equal]
  | string levels text => simp [Value.own, reshape, equal]
  | number levels real => exact Binary64.equal_unsignZero real
  | list nonempty shared each ih =>
      rw [own_items (.list nonempty shared each), equal, equalItems_iff,
        List.forall₂_map_right_iff, List.forall₂_same]
      exact ih
  | object sorted named each ih =>
      rw [own_entries (.object sorted named each), equal, equalEntries_iff,
        List.forall₂_map_right_iff, List.forall₂_same]
      exact fun entry member => ⟨rfl, ih entry member⟩

end Stable

end ScriptHost.Value
