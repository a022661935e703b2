import ScriptHost.Proofs.Engine.Direct
import ScriptHost.Proofs.Engine.Reorder
import ScriptHost.Proofs.Engine.Stable

set_option autoImplicit false

namespace ScriptHost.Engine

open Script (Datum Heap)

/-- A heap whose tables hold what those of another hold, and list it in any order. -/
structure Relisted (h h' : Heap) : Prop where
  size : h'.tables.size = h.tables.size
  table : ∀ id, (h'.table id).present.Perm (h.table id).present

section Entries

variable {reader : Datum → Except CallError Tree} {listed : List (Datum × Datum)}

theorem readEntries_of_read {key : Datum × Datum → Key} {tree : Datum × Datum → Tree}
    (keys : ∀ entry ∈ listed, readKey entry.1 = .ok (key entry))
    (trees : ∀ entry ∈ listed, reader entry.2 = .ok (tree entry)) :
    readEntries reader listed = .ok (listed.map fun entry => (key entry, tree entry)) := by
  induction listed with
  | nil => rfl
  | cons entry rest ih =>
      rw [List.forall_mem_cons] at keys trees
      rw [readEntries, keys.1, trees.1, ih keys.2 trees.2]
      rfl

/-- Entries are read only if the key and the value of each are. -/
theorem exists_of_readEntries {entries : List (Key × Tree)}
    (found : readEntries reader listed = .ok entries) :
    ∀ entry ∈ listed, ∃ key tree, readKey entry.1 = .ok key ∧ reader entry.2 = .ok tree := by
  induction listed generalizing entries with
  | nil => exact List.forall_mem_nil _
  | cons entry rest ih =>
      rw [readEntries] at found
      cases key : readKey entry.1 with
      | error e => simp [key] at found
      | ok first =>
          cases value : reader entry.2 with
          | error e => simp [key, value] at found
          | ok tree =>
              cases later : readEntries reader rest with
              | error e => simp [key, value, later, Except.map] at found
              | ok others =>
                  exact List.forall_mem_cons.mpr ⟨⟨first, tree, key, value⟩, ih later⟩

/-- Entries that are listed in another order, with values that are read in another order, are the
entries of a table in another order. -/
theorem readEntries_relisted {reader' : Datum → Except CallError Tree}
    {listed' : List (Datum × Datum)} {entries : List (Key × Tree)} (order : listed'.Perm listed)
    (each : ∀ datum tree, reader datum = .ok tree →
      ∃ other, reader' datum = .ok other ∧ Reordered tree other)
    (found : readEntries reader listed = .ok entries) :
    ∃ others, readEntries reader' listed' = .ok others ∧
      Reordered (.table entries) (.table others) := by
  choose! key before keys values using exists_of_readEntries found
  have inside : ∀ entry ∈ listed, ∃ after,
      reader' entry.2 = .ok after ∧ Reordered (before entry) after := by
    intro entry member
    apply each
    exact values entry member
  choose! after others reordered using inside
  have there : entries = listed.map fun entry => (key entry, before entry) := by
    rw [readEntries_of_read keys values] at found
    exact (Except.ok.inj found).symm
  have again : readEntries reader' listed' =
      .ok (listed'.map fun entry => (key entry, after entry)) := by
    apply readEntries_of_read
    · intro entry member
      exact keys entry (order.mem_iff.mp member)
    · intro entry member
      exact others entry (order.mem_iff.mp member)
  have tables := Reordered.table (order.map fun entry => (key entry, before entry, after entry))
    (List.forall_mem_map.mpr reordered)
  rw [List.map_map, List.map_map] at tables
  refine ⟨_, again, ?_⟩
  rw [there]
  exact tables

end Entries

/-- Tables that list their entries in another order are read as trees with their entries in another
order. -/
theorem readBelow_relisted {h h' : Heap} (relisted : Relisted h h') :
    ∀ levels ancestors datum tree, readBelow h levels ancestors datum = .ok tree →
      ∃ other, readBelow h' levels ancestors datum = .ok other ∧ Reordered tree other := by
  intro levels
  induction levels with
  | zero =>
      intro ancestors datum tree found
      cases datum with
      | table id => cases found
      | _ => exact ⟨tree, found, .refl tree⟩
  | succ levels ih =>
      intro ancestors datum tree found
      cases datum with
      | table id =>
          rw [readBelow] at found
          split at found
          · cases found
          rename_i fresh
          cases listed :
              readEntries (readBelow h levels (id :: ancestors)) (h.table id).present with
          | error e => simp [listed, Except.map] at found
          | ok entries =>
              obtain rfl : Tree.table entries = tree := by simpa [listed, Except.map] using found
              obtain ⟨others, again, reordered⟩ :=
                readEntries_relisted (relisted.table id) (ih (id :: ancestors)) listed
              refine ⟨_, ?_, reordered⟩
              rw [readBelow, if_neg fresh, again]
              rfl
      | _ => exact ⟨tree, found, .refl tree⟩

theorem read_relisted {h h' : Heap} {datum : Datum} {tree : Tree} (relisted : Relisted h h')
    (found : read h datum = .ok tree) :
    ∃ other, read h' datum = .ok other ∧ Reordered tree other := by
  rw [read, relisted.size]
  exact readBelow_relisted relisted _ _ _ _ found

/-- The keys of a container have different texts. -/
theorem distinct_of_spots? {value : Value} {spots : List (Key × Value)}
    (container : spots? value = some spots) (named : value.NamesAscend) :
    (spots.map fun spot => spot.1.text).Nodup := by
  cases value with
  | list items | set items | tuple items =>
      cases container
      exact distinct_positions items
  | map entries | object entries =>
      cases container
      exact distinct_names named
  | _ => cases container

theorem unambiguous_of_distinct {entries : List (Key × Tree)}
    (texts : (entries.map fun entry => entry.1.text).Nodup)
    (values : ∀ entry ∈ entries, Unambiguous entry.2) : Unambiguous (.table entries) := by
  refine .table values fun entry member other member' same => ?_
  rw [List.inj_on_of_nodup_map texts member member' same]

/-- A value in which all is known and nothing is null has a tree that a heap holds as it is, and in
which nothing is ambiguous. -/
theorem exists_settled_lower {value : Value} (ordered : value.Ordered) (known : value.Known)
    (notNull : ∀ part ∈ value.parts, part.isNull = false) :
    ∃ tree, lower value = .ok tree ∧ settle tree = tree ∧ Unambiguous tree := by
  induction value using Value.childrenInduction with
  | step value ih =>
      obtain ⟨named, orderedInside⟩ := Value.ordered_iff.mp ordered
      obtain ⟨known, knownInside⟩ := Value.known_iff.mp known
      obtain ⟨-, notNullInside⟩ := Value.forall_mem_parts.mp notNull
      cases container : spots? value with
      | none =>
          cases value with
          | null => exact ⟨.nil, rfl, rfl, .scalar fun _ => Tree.noConfusion⟩
          | bool b => exact ⟨.bool b, rfl, rfl, .scalar fun _ => Tree.noConfusion⟩
          | number x => exact ⟨.number x, rfl, rfl, .scalar fun _ => Tree.noConfusion⟩
          | string s => exact ⟨.string s, rfl, rfl, .scalar fun _ => Tree.noConfusion⟩
          | unknown ty => exact absurd rfl (known ty)
          | _ => cases container
      | some spots =>
          have each : ∀ child ∈ value.children,
              ∃ tree, lower child = .ok tree ∧ settle tree = tree ∧ Unambiguous tree :=
            fun child member => ih child member (orderedInside child member)
              (knownInside child member) (notNullInside child member)
          choose! tree lowered settled unambiguous using each
          have distinct := distinct_of_spots? container named
          have child {spot : Key × Value} (member : spot ∈ spots) : spot.2 ∈ value.children :=
            mem_children_of_spots? container member
          have all : filled spots = spots := by
            apply filled_of_notNull
            intro spot member
            exact (Value.forall_mem_parts.mp (notNullInside spot.2 (child member))).1
          refine ⟨_, lower_of_spots? container lowered, ?_, ?_⟩
          · rw [settle_of_spots? container distinct lowered, all]
            congr 1
            apply List.map_congr_left
            intro spot member
            rw [settled spot.2 (child member)]
          · apply unambiguous_of_distinct
            · rwa [List.map_map]
            · intro entry member
              obtain ⟨spot, inside, rfl⟩ := List.mem_map.mp member
              exact unambiguous spot.2 (child inside)

/-- A value in which all is known and nothing is null goes into any heap and comes out of it, and
what it is raised as is the same as past the heap, whatever the order in which the tables list what
is in them. -/
theorem raise_read_relisted {value : Value} (ordered : value.Ordered) (known : value.Known)
    (notNull : ∀ part ∈ value.parts, part.isNull = false) :
    ∃ tree result, lower value = .ok tree ∧ raise tree = .ok result ∧
      ∀ h, ∃ datum h', push h tree = .ok (datum, h') ∧
        ∀ enumerated, Relisted h' enumerated →
          ∃ other, read enumerated datum = .ok other ∧ raise other = .ok result := by
  obtain ⟨tree, lowered, settled, unambiguous⟩ := exists_settled_lower ordered known notNull
  obtain ⟨same, lowered', portable, indexed⟩ := exists_lower known
  obtain rfl : tree = same := Except.ok.inj (lowered.symm.trans lowered')
  obtain ⟨result, raised⟩ := exists_raise portable
  refine ⟨tree, result, lowered, raised, fun h => ?_⟩
  obtain ⟨datum, h', pushed⟩ := exists_push portable indexed h
  refine ⟨datum, h', pushed, fun enumerated relisted => ?_⟩
  have back : read h' datum = .ok tree := by
    rw [read_push pushed, settled]
  obtain ⟨other, found, reordered⟩ := read_relisted relisted back
  refine ⟨other, found, ?_⟩
  rw [raise_reordered portable unambiguous reordered, raised]

/-- An object whose two entries come out in either order. -/
theorem raise_read_relisted_object :
    ∃ tree result,
      lower (.object [("a", .list [.bool true]), ("b", .string "x")]) = .ok tree ∧
        raise tree = .ok result ∧
          ∀ h, ∃ datum h', push h tree = .ok (datum, h') ∧
            ∀ enumerated, Relisted h' enumerated →
              ∃ other, read enumerated datum = .ok other ∧ raise other = .ok result := by
  apply @raise_read_relisted (.object [("a", .list [.bool true]), ("b", .string "x")])
  · intro part member
    fin_cases member
    · exact List.pairwise_pair.mpr (by decide)
    all_goals trivial
  · simp [Value.Known, Value.parts, Value.partsOfEntries, Value.partsOfItems]
  · decide

end ScriptHost.Engine
