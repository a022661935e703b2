import Mathlib.Tactic.FinCases
import ScriptHost.Proofs.Wire.Conform
import ScriptHost.Wire

set_option autoImplicit false

/- Values written under the types that are inferred for them. Unification only makes types more
specific, so every item fits what its neighbours make of its type, but for one thing: the items of a
set without a common type do not fit an element type that the set takes over from its neighbours. -/
namespace ScriptHost

/-- Writing a value under a type meets a set without a common type, under a given element type. -/
inductive Forces : Value → Ty → List Value → Ty → Prop
  | here {items : List Value} {element : Ty} (mixed : Ty.common (items.map Value.ty) = none)
      (forced : element ≠ .dynamic) : Forces (.set items) (.set element) items element
  | own {value : Value} {mixed : List Value} {element : Ty} (typed : value.ty ≠ .dynamic)
      (inside : Forces value value.ty mixed element) : Forces value .dynamic mixed element
  | item {value : Value} {items : List Value} {ty : Ty} {types : List Ty} {place : Value × Ty}
      {mixed : List Value} {element : Ty} (sequence : value.items? = some items)
      (places : ty.itemTypes? items.length = some types) (member : place ∈ items.zip types)
      (inside : Forces place.1 place.2 mixed element) : Forces value ty mixed element
  | entry {value : Value} {entries : List (String × Value)} {ty : Ty}
      {fields : List (String × Ty)} {field : String × Ty} {mixed : List Value} {element : Ty}
      (collection : value.entries? = some entries)
      (places : ty.entryTypes? (Dict.keys entries) = some fields) (member : field ∈ fields)
      (inside : Forces (Value.entry entries field.1) field.2 mixed element) :
      Forces value ty mixed element

/-- A value that fits is written whole, so the items of every set that is met fit. -/
theorem Forces.fits {value : Value} {ty : Ty} {mixed : List Value} {element : Ty}
    (forces : Forces value ty mixed element) (fits : Fits value ty) :
    ∀ item ∈ mixed, Fits item element := by
  induction forces with
  | here =>
      rename_i items element _ _
      intro item member
      have places : (Ty.set element).itemTypes? items.length =
        some (List.replicate items.length element) := rfl
      obtain ⟨type, zipped⟩ := Wire.Binary.exists_mem_zip List.length_replicate member
      obtain rfl : type = element := List.eq_of_mem_replicate (List.of_mem_zip zipped).2
      exact (Fits.items_iff rfl places).mp fits _ zipped
  | own _ _ ih => exact ih (Fits.own_iff.mp fits)
  | item sequence places member _ ih =>
      exact ih ((Fits.items_iff sequence places).mp fits _ member)
  | entry collection places member _ ih =>
      exact ih ((Fits.entries_iff collection places).mp fits _ member)

theorem Forces.own_of_inferred {value : Value} {mixed : List Value} {element : Ty}
    (forces : Forces value value.ty mixed element) : Forces value .dynamic mixed element := by
  by_cases typed : value.ty = .dynamic
  · rw [typed] at forces
    exact forces
  · exact .own typed forces

/-- Where the items of every set have a common type, no set is met without one. -/
theorem Value.SetsAgree.not_forces {value : Value} {ty : Ty} {mixed : List Value} {element : Ty}
    (agree : value.SetsAgree) : ¬ Forces value ty mixed element := by
  intro forces
  induction forces with
  | here none => exact (Value.setsAgree_iff.mp agree).1 none
  | own _ _ ih => exact ih agree
  | item sequence _ member _ ih =>
      have inside := (Value.setsAgree_iff.mp agree).2
      rw [Value.children_of_items? sequence] at inside
      exact ih (inside _ (List.of_mem_zip member).1)
  | entry collection _ _ _ ih =>
      have inside := (Value.setsAgree_iff.mp agree).2
      rw [Value.children_of_entries? collection, List.forall_mem_map] at inside
      have null : Value.SetsAgree .null :=
        Value.setsAgree_iff.mpr ⟨trivial, List.forall_mem_nil _⟩
      exact ih (Value.forall_entry Value.SetsAgree null inside _)

/-- The items of every set that is met without a common type fit the element type. -/
def Tolerates (value : Value) (ty : Ty) : Prop :=
  ∀ mixed element, Forces value ty mixed element → ∀ item ∈ mixed, Fits item element

variable {items : List Value} {entries : List (String × Value)} {ty element : Ty}

theorem le_of_replicate (below : ∀ item ∈ items, item.ty ≤ element) :
    ∀ place ∈ items.zip (List.replicate items.length element), place.1.ty ≤ place.2 := by
  intro place member
  obtain ⟨inItems, inTypes⟩ := List.of_mem_zip member
  rw [List.eq_of_mem_replicate inTypes]
  exact below place.1 inItems

theorem items_le_of_common {wider : Ty} (shared : Ty.common (items.map Value.ty) = some element)
    (above : element ≤ wider) : ∀ item ∈ items, item.ty ≤ wider := by
  intro item member
  exact Ty.le_trans (Ty.le_common shared (List.mem_map_of_mem member)) above

theorem places_of_tuple_le (below : Ty.tuple (items.map Value.ty) ≤ ty) :
    ∃ types, ty.itemTypes? items.length = some types ∧
      ∀ place ∈ items.zip types, place.1.ty ≤ place.2 := by
  obtain ⟨types, rfl, each⟩ := Ty.tuple_le.mp below
  rw [List.forall₂_map_left_iff] at each
  refine ⟨types, ?_, fun place member => ?_⟩
  · rw [Ty.itemTypes?, if_pos each.length_eq]
  · exact (List.forall₂_iff_zip.mp each).2 member

theorem places_of_map_le (below : ∀ entry ∈ entries, entry.2.ty ≤ element) :
    ∃ fields, (Ty.map element).entryTypes? (Dict.keys entries) = some fields ∧
      ∀ field ∈ fields, (Value.entry entries field.1).ty ≤ field.2 := by
  refine ⟨_, rfl, fun field member => ?_⟩
  obtain ⟨name, -, rfl⟩ := List.mem_map.mp member
  let Below (value : Value) : Prop := value.ty ≤ element
  exact Value.forall_entry Below (Ty.dynamic_le element) below name

theorem keys_of_object_le {fields : List (String × Ty)}
    (below : Ty.object (entries.map fun entry => (entry.1, entry.2.ty)) ≤ .object fields) :
    Dict.keys entries = Dict.keys fields := by
  obtain ⟨_, ⟨⟩, each⟩ := Ty.object_le.mp below
  rw [List.forall₂_map_left_iff] at each
  clear below
  induction each with
  | nil => rfl
  | cons head _ ih => rw [Dict.keys_cons, Dict.keys_cons, head.1, ih]

theorem places_of_object_le (sorted : Dict.Sorted entries)
    (below : Ty.object (entries.map fun entry => (entry.1, entry.2.ty)) ≤ ty) :
    ∃ fields, ty.entryTypes? (Dict.keys entries) = some fields ∧
      ∀ field ∈ fields, (Value.entry entries field.1).ty ≤ field.2 := by
  obtain ⟨fields, rfl, each⟩ := Ty.object_le.mp below
  rw [List.forall₂_map_left_iff] at each
  have names := keys_of_object_le below
  refine ⟨fields, ?_, fun field member => ?_⟩
  · rw [Ty.entryTypes?, if_pos (by rw [names]; exact List.Subset.refl _)]
  · obtain ⟨lengths, pairs⟩ := List.forall₂_iff_zip.mp each
    have second : field ∈ (entries.zip fields).map Prod.snd := by
      rw [List.map_snd_zip (by omega)]
      exact member
    obtain ⟨⟨entry, _⟩, zipped, rfl⟩ := List.mem_map.mp second
    obtain ⟨same, under⟩ := pairs zipped
    rw [← same, Wire.entry_of_mem sorted (List.of_mem_zip zipped).1]
    exact under

/-- A value fits what is more specific than its type, if the sets inside bear it. -/
def Bears (value : Value) : Prop := ∀ ty, value.ty ≤ ty → Tolerates value ty → Fits value ty

theorem bears_items {value : Value} {types : List Ty} (sequence : value.items? = some items)
    (places : ty.itemTypes? items.length = some types)
    (below : ∀ place ∈ items.zip types, place.1.ty ≤ place.2) (inside : ∀ item ∈ items, Bears item)
    (tolerates : Tolerates value ty) : Fits value ty := by
  refine .items sequence places fun place member => ?_
  refine inside place.1 (List.of_mem_zip member).1 place.2 (below place member) ?_
  exact fun mixed element forces => tolerates mixed element (.item sequence places member forces)

theorem bears_entries {value : Value} {fields : List (String × Ty)}
    (collection : value.entries? = some entries)
    (places : ty.entryTypes? (Dict.keys entries) = some fields)
    (below : ∀ field ∈ fields, (Value.entry entries field.1).ty ≤ field.2)
    (inside : ∀ entry ∈ entries, Bears entry.2) (tolerates : Tolerates value ty) :
    Fits value ty := by
  refine .entries collection places fun field member => ?_
  have bears : Bears (Value.entry entries field.1) :=
    Value.forall_entry Bears (fun ty _ _ => .null ty) inside field.1
  refine bears field.2 (below field member) ?_
  exact fun mixed element forces => tolerates mixed element (.entry collection places member forces)

theorem bears_list (inside : ∀ item ∈ items, Bears item) : Bears (.list items) := by
  intro ty below tolerates
  rw [Value.ty_list] at below
  split at below
  · rename_i element shared
    obtain ⟨wider, rfl, above⟩ := Ty.list_le.mp below
    have each := le_of_replicate (items_le_of_common shared above)
    exact bears_items rfl rfl each inside tolerates
  · obtain ⟨types, places, each⟩ := places_of_tuple_le below
    exact bears_items rfl places each inside tolerates

theorem bears_tuple (inside : ∀ item ∈ items, Bears item) : Bears (.tuple items) := by
  intro ty below tolerates
  rw [Value.ty_tuple] at below
  obtain ⟨types, places, each⟩ := places_of_tuple_le below
  exact bears_items rfl places each inside tolerates

/-- Under the fallback element type each item of a set comes with its own type; under any other
element type the set is one of those that must be tolerated. -/
theorem bears_set (inside : ∀ item ∈ items, Bears item) : Bears (.set items) := by
  intro ty below tolerates
  rw [Value.ty_set] at below
  obtain ⟨wider, rfl, above⟩ := Ty.set_le.mp below
  cases shared : Ty.common (items.map Value.ty) with
  | some element =>
      rw [shared, Option.getD_some] at above
      have each := le_of_replicate (items_le_of_common shared above)
      exact bears_items rfl rfl each inside tolerates
  | none =>
      refine .items rfl rfl fun place member => ?_
      obtain ⟨inItems, inTypes⟩ := List.of_mem_zip member
      rw [List.eq_of_mem_replicate inTypes]
      by_cases free : wider = .dynamic
      · subst free
        refine Fits.own_iff.mpr (inside place.1 inItems _ (Ty.le_refl _) ?_)
        intro mixed element forces
        refine tolerates mixed element (.item rfl rfl member ?_)
        rw [List.eq_of_mem_replicate inTypes]
        exact forces.own_of_inferred
      · exact tolerates items wider (.here shared free) place.1 inItems

theorem bears_object (sorted : Dict.Sorted entries) (inside : ∀ entry ∈ entries, Bears entry.2) :
    Bears (.object entries) := by
  intro ty below tolerates
  rw [Value.ty_object] at below
  obtain ⟨fields, places, each⟩ := places_of_object_le sorted below
  exact bears_entries rfl places each inside tolerates

theorem bears_map (sorted : Dict.Sorted entries) (inside : ∀ entry ∈ entries, Bears entry.2) :
    Bears (.map entries) := by
  intro ty below tolerates
  rw [Value.ty_map] at below
  split at below
  · rename_i element shared
    obtain ⟨wider, rfl, above⟩ := Ty.map_le.mp below
    obtain ⟨fields, places, each⟩ := places_of_map_le fun entry member =>
      Ty.le_trans (Ty.le_common shared (List.mem_map_of_mem member)) above
    exact bears_entries rfl places each inside tolerates
  · obtain ⟨fields, places, each⟩ := places_of_object_le sorted below
    exact bears_entries rfl places each inside tolerates

theorem bears (value : Value) (ordered : value.Ordered) : Bears value := by
  induction value using Value.childrenInduction with
  | step value ih =>
      obtain ⟨named, children⟩ := Value.ordered_iff.mp ordered
      have inside : ∀ child ∈ value.children, Bears child :=
        fun child member => ih child member (children child member)
      cases value with
      | null => exact fun ty _ _ => .null ty
      | unknown known => exact fun ty _ _ => .unknown known ty
      | bool b => exact fun ty below _ => Ty.bool_le.mp below ▸ .bool b
      | number x => exact fun ty below _ => Ty.number_le.mp below ▸ .number x
      | string text => exact fun ty below _ => Ty.string_le.mp below ▸ .string text
      | list items => exact bears_list inside
      | set items => exact bears_set inside
      | tuple items => exact bears_tuple inside
      | map entries => exact bears_map named (List.forall_mem_map.mp inside)
      | object entries => exact bears_object named (List.forall_mem_map.mp inside)

theorem fits_dynamic_iff {value : Value} (ordered : value.Ordered) :
    Fits value .dynamic ↔ Tolerates value .dynamic := by
  constructor
  · exact fun fits mixed element forces => forces.fits fits
  · intro tolerates
    refine Fits.own_iff.mpr (bears value ordered value.ty (Ty.le_refl _) ?_)
    exact fun mixed element forces => tolerates mixed element forces.own_of_inferred

namespace Wire

theorem exists_payload_iff {value : Value} {ty : Ty} :
    (∃ payload, encode value ty = .ok payload) ↔ ∃ raw, Binary.document value ty = .ok raw := by
  unfold encode encodeBinary Binary.encode
  cases Binary.document value ty <;> simp [Except.map, Except.mapError]

/-- A value can be written with its own type unless a number inside is NaN, or a set without a
common type takes over an element type that not all of its items fit. -/
theorem encode_dynamic_iff {value : Value} (ordered : value.Ordered) :
    (∃ payload, encode value .dynamic = .ok payload) ↔
      ¬ value.HasNaN ∧ ∀ mixed element, Forces value .dynamic mixed element →
        ∀ item ∈ mixed, Fits item element := by
  rw [exists_payload_iff, Binary.exists_document_iff ordered, fits_dynamic_iff ordered, and_comm]
  rfl

/-- A set of a truth value and a text beside an empty set. -/
theorem encode_dynamic_iff_mixed :
    let value := Value.list [.set [.bool true, .string "a"], .set []]
    ∀ mixed element, Forces value .dynamic mixed element → ∀ item ∈ mixed, Fits item element := by
  intro value
  have ordered : value.Ordered := by
    intro part member
    fin_cases member <;> trivial
  exact ((encode_dynamic_iff ordered).mp ⟨_, rfl⟩).2

/-- Beside a set of truth values the same set cannot be written, though no number is NaN. -/
theorem encode_dynamic_refuses_mixed :
    ∃ value : Value, value.Ordered ∧ ¬ value.HasNaN ∧
      ∀ payload, encode value .dynamic ≠ .ok payload := by
  refine ⟨.list [.set [.bool true, .string "a"], .set [.bool false]], ?_, ?_, ?_⟩
  · intro part member
    fin_cases member <;> trivial
  · rintro ⟨x, member, _⟩
    simp [Value.parts, Value.partsOfItems] at member
  · intro payload written
    cases written

end Wire

end ScriptHost
