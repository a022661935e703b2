import Mathlib.Tactic.Choose
import ScriptHost.Engine.Lower
import ScriptHost.Proofs.Engine.Classify
import ScriptHost.Proofs.Engine.Crossing
import ScriptHost.Proofs.Parts

set_option autoImplicit false

namespace ScriptHost.Engine

open Script (Heap)

/-- A value into a heap and out of it again. -/
def cross (h : Heap) (value : Value) : Except CallError Value := do
  let tree ← lower value
  let (datum, h) ← push h tree
  raise (← read h datum)

/-- A value comes out as another, whatever the heap is. -/
def Crosses (value result : Value) : Prop :=
  ∃ tree, lower value = .ok tree ∧ raise (settle tree) = .ok result

/-- Items under their positions. -/
def positions (items : List Value) : List (Key × Value) :=
  items.zipIdx.map fun (item, position) => (.integer position, item)

/-- Entries under their names. -/
def names (entries : List (String × Value)) : List (Key × Value) :=
  entries.map fun (name, value) => (.string name, value)

/-- What a container puts under which key. -/
def spots? : Value → Option (List (Key × Value))
  | .list items | .set items | .tuple items => some (positions items)
  | .map entries | .object entries => some (names entries)
  | _ => none

theorem mem_positions {items : List Value} {spot : Key × Value} :
    spot ∈ positions items ↔ ∃ i : Nat, spot.1 = .integer i ∧ items[i]? = some spot.2 := by
  obtain ⟨key, item⟩ := spot
  rw [positions, List.mem_map]
  constructor
  · rintro ⟨⟨other, i⟩, inside, same⟩
    cases same
    exact ⟨i, rfl, List.mk_mem_zipIdx_iff_getElem?.mp inside⟩
  · rintro ⟨i, rfl, found⟩
    exact ⟨(item, i), List.mk_mem_zipIdx_iff_getElem?.mpr found, rfl⟩

theorem mem_names {entries : List (String × Value)} {spot : Key × Value} :
    spot ∈ names entries ↔ ∃ name, spot.1 = .string name ∧ (name, spot.2) ∈ entries := by
  obtain ⟨key, value⟩ := spot
  rw [names, List.mem_map]
  constructor
  · rintro ⟨⟨name, other⟩, inside, same⟩
    cases same
    exact ⟨name, rfl, inside⟩
  · rintro ⟨name, rfl, inside⟩
    exact ⟨(name, value), inside, rfl⟩

theorem spots?_of_items? {value : Value} {items : List Value}
    (sequence : value.items? = some items) : spots? value = some (positions items) := by
  cases value <;> cases sequence <;> rfl

section Spots

variable {value : Value} {spots : List (Key × Value)}

theorem mem_children_of_spots? (container : spots? value = some spots) {spot : Key × Value}
    (member : spot ∈ spots) : spot.2 ∈ value.children := by
  cases value with
  | list items | set items | tuple items =>
      cases container
      obtain ⟨i, -, found⟩ := mem_positions.mp member
      exact List.mem_of_getElem? found
  | map entries | object entries =>
      cases container
      obtain ⟨name, -, inside⟩ := mem_names.mp member
      exact List.mem_map_of_mem inside
  | _ => cases container

/-- The keys of containers are kept as they are. -/
theorem settled_of_spots? (container : spots? value = some spots) {spot : Key × Value}
    (member : spot ∈ spots) : spot.1.settled = spot.1 ∧
      (∀ typeName, spot.1 ≠ .foreign typeName) ∧ spot.1.isNaN = false := by
  cases value with
  | list items | set items | tuple items =>
      cases container
      obtain ⟨i, key, -⟩ := mem_positions.mp member
      simp [key, Key.settled, Key.isNaN]
  | map entries | object entries =>
      cases container
      obtain ⟨name, key, -⟩ := mem_names.mp member
      simp [key, Key.settled, Key.isNaN]
  | _ => cases container

theorem lowerItems_of_lower {items : List Value} {tree : Value → Tree}
    (lowered : ∀ item ∈ items, lower item = .ok (tree item)) (position : Nat) :
    lowerItems position items =
      .ok ((items.zipIdx position).map fun spot => (.integer spot.2, tree spot.1)) := by
  induction items generalizing position with
  | nil => rfl
  | cons item rest ih =>
      rw [List.forall_mem_cons] at lowered
      rw [lowerItems, lowered.1, ih lowered.2]
      rfl

theorem lowerEntries_of_lower {entries : List (String × Value)} {tree : Value → Tree}
    (lowered : ∀ entry ∈ entries, lower entry.2 = .ok (tree entry.2)) :
    lowerEntries entries = .ok (entries.map fun entry => (.string entry.1, tree entry.2)) := by
  induction entries with
  | nil => rfl
  | cons entry rest ih =>
      rw [List.forall_mem_cons] at lowered
      rw [lowerEntries, lowered.1, ih lowered.2]
      rfl

theorem lower_of_spots? {tree : Value → Tree} (container : spots? value = some spots)
    (lowered : ∀ child ∈ value.children, lower child = .ok (tree child)) :
    lower value = .ok (.table (spots.map fun spot => (spot.1, tree spot.2))) := by
  cases value with
  | list items | set items | tuple items =>
      cases container
      have each : ∀ item ∈ items, lower item = .ok (tree item) := lowered
      rw [lower, lowerItems_of_lower each, positions, List.map_map]
      rfl
  | map entries | object entries =>
      cases container
      have each : ∀ entry ∈ entries, lower entry.2 = .ok (tree entry.2) :=
        fun entry member => lowered entry.2 (List.mem_map_of_mem member)
      rw [lower, lowerEntries_of_lower each, names, List.map_map]
      rfl
  | _ => cases container

end Spots

theorem isNil_of_lower {value : Value} {tree : Tree} (lowered : lower value = .ok tree) :
    tree.isNil = value.isNull := by
  cases value with
  | list items | set items | tuple items =>
      rw [lower] at lowered
      cases inside : lowerItems 0 items <;> simp [inside, Except.map] at lowered
      rw [← lowered]
      rfl
  | map entries | object entries =>
      rw [lower] at lowered
      cases inside : lowerEntries entries <;> simp [inside, Except.map] at lowered
      rw [← lowered]
      rfl
  | unknown ty => simp [lower] at lowered
  | _ =>
      cases lowered
      rfl

/-- A known value can be lowered, into a tree that a heap can hold. -/
theorem exists_lower {value : Value} (known : value.Known) :
    ∃ tree, lower value = .ok tree ∧ Portable tree ∧ Indexed tree := by
  induction value using Value.childrenInduction with
  | step value ih =>
      obtain ⟨known, inside⟩ := Value.known_iff.mp known
      cases container : spots? value with
      | none =>
          cases value with
          | null => exact ⟨.nil, rfl, .nil, .scalar (by simp)⟩
          | bool b => exact ⟨.bool b, rfl, .bool b, .scalar (by simp)⟩
          | number x => exact ⟨.number x, rfl, .number x, .scalar (by simp)⟩
          | string s => exact ⟨.string s, rfl, .string s, .scalar (by simp)⟩
          | unknown ty => exact absurd rfl (known ty)
          | _ => cases container
      | some spots =>
          have each : ∀ child ∈ value.children,
              ∃ tree, lower child = .ok tree ∧ Portable tree ∧ Indexed tree :=
            fun child member => ih child member (inside child member)
          choose! tree lowered portable indexed using each
          refine ⟨_, lower_of_spots? container lowered, .table ?_ ?_, .table ?_ ?_⟩
          all_goals
            intro entry member
            obtain ⟨spot, placed, rfl⟩ := List.mem_map.mp member
          · exact (settled_of_spots? container placed).2.1
          · exact portable spot.2 (mem_children_of_spots? container placed)
          · exact (settled_of_spots? container placed).2.2
          · exact indexed spot.2 (mem_children_of_spots? container placed)

/-- The text of a key, be it foreign or not. -/
def Key.text : Key → String
  | integer value => toString value
  | number value => value.plainText
  | string value => value
  | foreign typeName => typeName

theorem name_eq_text {key : Key} (native : ∀ typeName, key ≠ .foreign typeName) :
    key.name = .ok key.text := by
  cases key with
  | foreign typeName => exact absurd rfl (native typeName)
  | _ => rfl

theorem raiseEntries_of_raise {α : Type} {entries : List α} {key : α → Key} {tree : α → Tree}
    {value : α → Value}
    (native : ∀ entry ∈ entries, ∀ typeName, key entry ≠ .foreign typeName)
    (raised : ∀ entry ∈ entries, raise (tree entry) = .ok (value entry))
    (d : List (String × Value)) :
    raiseEntries d (entries.map fun entry => (key entry, tree entry)) =
      .ok ((entries.map fun entry => ((key entry).text, value entry)).foldl
        (fun d pair => Dict.insert pair.1 pair.2 d) d) := by
  induction entries generalizing d with
  | nil => rfl
  | cons entry rest ih =>
      rw [List.forall_mem_cons] at native raised
      rw [List.map_cons, raiseEntries, name_eq_text native.1, raised.1]
      exact ih native.2 raised.2 _

/-- Every tree that a heap can hold can be raised. -/
theorem exists_raise {tree : Tree} (portable : Portable tree) :
    ∃ value, raise tree = .ok value := by
  induction portable with
  | nil => exact ⟨.null, rfl⟩
  | bool value => exact ⟨.bool value, rfl⟩
  | number value => exact ⟨.number value, rfl⟩
  | string value => exact ⟨.string value, rfl⟩
  | @table entries keys _ ih =>
      choose! value raised using ih
      have raisedEntries := raiseEntries_of_raise keys raised []
      rw [List.map_id'] at raisedEntries
      exact ⟨_, by rw [raise, raisedEntries]; rfl⟩

theorem texts_positions (items : List Value) :
    (positions items).map (fun spot => spot.1.text) = indexNames 0 items.length := by
  rw [positions, List.map_map, indexNames, ← List.zipIdx_map_snd 0 items, List.map_map]
  rfl

theorem distinct_positions (items : List Value) :
    ((positions items).map fun spot => spot.1.text).Nodup := by
  rw [texts_positions]
  exact nodup_indexNames 0 items.length

/-- Items under the texts of their positions are a list. -/
theorem classify_positions {items : List Value} (nonempty : items ≠ []) :
    classify (Dict.ofList ((positions items).map fun spot => (spot.1.text, spot.2))) =
      .list items := by
  let pairs := (positions items).map fun spot => (spot.1.text, spot.2)
  have names : Dict.keys pairs = indexNames 0 items.length := by
    rw [← texts_positions, Dict.keys, List.map_map]
    rfl
  have distinct : (Dict.keys pairs).Nodup := by
    rw [names]
    exact nodup_indexNames 0 items.length
  have order : (Dict.keys (Dict.ofList pairs)).Perm (Dict.keys pairs) :=
    (List.perm_ext_iff_of_nodup (Dict.sorted_ofList pairs).nodup distinct).mpr
      fun name => Dict.mem_keys_ofList
  have length : (Dict.ofList pairs).length = items.length := by
    have same := order.length_eq
    rwa [names, length_indexNames, Dict.keys, List.length_map] at same
  have pos : 0 < items.length := List.length_pos_iff.mpr nonempty
  have there : Dict.ofList pairs ≠ [] := List.ne_nil_of_length_pos (by omega)
  refine classify_of_runs (Nat.zero_le 1) ⟨there, ?_⟩
  rw [length, List.forall₂_iff_get]
  refine ⟨length_indexNames 0 items.length, fun i inNames inItems => ?_⟩
  have placed : (toString i, items[i]) ∈ pairs :=
    List.mem_map.mpr ⟨(.integer i, items[i]),
      mem_positions.mpr ⟨i, rfl, List.getElem?_eq_getElem inItems⟩, rfl⟩
  have found : Dict.get? (Dict.ofList pairs) (toString i) = some items[i] := by
    rwa [Dict.get?_ofList distinct, Dict.get?_eq_some_iff distinct]
  simpa [indexNames] using found

/-- The way through a heap is that of the settled tree. -/
theorem cross_eq_ok_iff {h : Heap} {value result : Value} (known : value.Known) :
    cross h value = .ok result ↔ Crosses value result := by
  obtain ⟨tree, lowered, portable, indexed⟩ := exists_lower known
  obtain ⟨datum, h', pushed⟩ := exists_push portable indexed h
  have way : cross h value = raise (settle tree) := by
    simp only [cross, lowered, pushed, read_push pushed, bind, Except.bind]
  rw [way]
  constructor
  · intro raised
    exact ⟨tree, lowered, raised⟩
  · rintro ⟨other, lowered', raised⟩
    rw [lowered] at lowered'
    cases lowered'
    exact raised

/-- A known value comes out of the engine. -/
theorem exists_crosses {value : Value} (known : value.Known) : ∃ result, Crosses value result := by
  obtain ⟨tree, lowered, portable, -⟩ := exists_lower known
  obtain ⟨result, raised⟩ := exists_raise portable.settle
  exact ⟨result, tree, lowered, raised⟩

/-- The spots of a container where something is. -/
def filled (spots : List (Key × Value)) : List (Key × Value) :=
  spots.filter fun spot => !spot.2.isNull

theorem mem_filled {spots : List (Key × Value)} {spot : Key × Value} :
    spot ∈ filled spots ↔ spot ∈ spots ∧ spot.2.isNull = false := by
  rw [filled, List.mem_filter, Bool.not_eq_true']

/-- What comes out of a container: what is not null in it, by the texts of the keys. -/
def kept (spots : List (Key × Value)) (result : Value → Value) : List (String × Value) :=
  Dict.ofList ((filled spots).map fun spot => (spot.1.text, result spot.2))

/-- A container settles to what is not null in it. -/
theorem settle_of_spots? {value : Value} {spots : List (Key × Value)} {tree : Value → Tree}
    (container : spots? value = some spots)
    (distinct : (spots.map fun spot => spot.1.text).Nodup)
    (lowered : ∀ child ∈ value.children, lower child = .ok (tree child)) :
    settle (.table (spots.map fun spot => (spot.1, tree spot.2))) =
      .table ((filled spots).map fun spot => (spot.1, settle (tree spot.2))) := by
  have settled : ((spots.map fun spot => (spot.1, tree spot.2)).map fun entry =>
      (entry.1.settled, settle entry.2)) =
        spots.map fun spot => (spot.1, settle (tree spot.2)) := by
    rw [List.map_map]
    refine List.map_congr_left fun spot member => ?_
    rw [Function.comp_apply, (settled_of_spots? container member).1]
  have keys : ((spots.map fun spot => (spot.1, tree spot.2)).map fun entry =>
      entry.1.settled).Nodup := by
    have same : (spots.map fun spot => (spot.1, tree spot.2)).map (fun entry => entry.1.settled) =
        spots.map Prod.fst := by
      rw [List.map_map]
      exact List.map_congr_left fun spot member => (settled_of_spots? container member).1
    rw [same]
    refine List.Nodup.of_map Key.text ?_
    rwa [List.map_map]
  have there : present (spots.map fun spot => (spot.1, settle (tree spot.2))) =
      (filled spots).map fun spot => (spot.1, settle (tree spot.2)) := by
    rw [present, List.filter_map, filled]
    refine congrArg _ (List.filter_congr fun spot member => ?_)
    have child := mem_children_of_spots? container member
    rw [Function.comp_apply, settle_isNil, isNil_of_lower (lowered spot.2 child)]
  rw [settle_table_of_distinct keys, settled, there]

/-- A container comes out as the dictionary of what comes out of its children. -/
theorem crosses_of_spots? {value : Value} {spots : List (Key × Value)} {result : Value → Value}
    (container : spots? value = some spots)
    (distinct : (spots.map fun spot => spot.1.text).Nodup)
    (crosses : ∀ child ∈ value.children, Crosses child (result child)) :
    Crosses value (classify (kept spots result)) := by
  choose! tree lowered raised using crosses
  have native : ∀ spot ∈ filled spots, ∀ typeName, spot.1 ≠ .foreign typeName :=
    fun spot member => (settled_of_spots? container (mem_filled.mp member).1).2.1
  have each : ∀ spot ∈ filled spots, raise (settle (tree spot.2)) = .ok (result spot.2) :=
    fun spot member => raised spot.2 (mem_children_of_spots? container (mem_filled.mp member).1)
  refine ⟨_, lower_of_spots? container lowered, ?_⟩
  rw [settle_of_spots? container distinct lowered, raise, raiseEntries_of_raise native each]
  rfl

section Kept

variable {spots : List (Key × Value)} {result : Value → Value} {name : String}

theorem nodup_keys_kept (spots : List (Key × Value)) (result : Value → Value) :
    (Dict.keys (kept spots result)).Nodup :=
  (Dict.sorted_ofList _).nodup

theorem mem_keys_kept : name ∈ Dict.keys (kept spots result) ↔
    ∃ spot ∈ spots, spot.2.isNull = false ∧ spot.1.text = name := by
  rw [kept, Dict.mem_keys_ofList, Dict.keys, List.map_map, List.mem_map]
  simp [mem_filled, and_assoc]

theorem get?_kept {value : Value} (distinct : (spots.map fun spot => spot.1.text).Nodup) :
    Dict.get? (kept spots result) name = some value ↔
      ∃ spot ∈ spots, spot.2.isNull = false ∧ spot.1.text = name ∧ result spot.2 = value := by
  have names : (Dict.keys ((filled spots).map fun spot =>
      (spot.1.text, result spot.2))).Nodup := by
    rw [Dict.keys, List.map_map]
    exact distinct.sublist (List.filter_sublist.map _)
  rw [kept, Dict.get?_ofList names, Dict.get?_eq_some_iff names, List.mem_map]
  simp [mem_filled, and_assoc]

end Kept

end ScriptHost.Engine
