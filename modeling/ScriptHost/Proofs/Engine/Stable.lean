import ScriptHost.Proofs.Engine.Position
import ScriptHost.Proofs.Value.Stable

set_option autoImplicit false

namespace ScriptHost.Engine

open Value (Stable)

theorem isNull_of_stable {levels : Nat} {value : Value} (stable : Stable levels value) :
    value.isNull = false := by
  cases stable <;> rfl

theorem filled_of_notNull {spots : List (Key × Value)}
    (notNull : ∀ spot ∈ spots, spot.2.isNull = false) : filled spots = spots := by
  refine List.filter_eq_self.mpr fun spot member => ?_
  rw [notNull spot member]
  rfl

/-- Items none of which is null come out as a list. -/
theorem classify_kept_positions {items : List Value} (nonempty : items ≠ [])
    (notNull : ∀ item ∈ items, item.isNull = false) :
    classify (kept (positions items) id) = .list items := by
  have all : filled (positions items) = positions items := by
    refine filled_of_notNull fun spot member => ?_
    obtain ⟨i, -, found⟩ := mem_positions.mp member
    exact notNull _ (List.mem_of_getElem? found)
  rw [kept, all]
  exact classify_positions nonempty

/-- An object comes out as it is if no list has its names. -/
theorem classify_of_named {entries : List (String × Value)}
    (named : ∀ first ≤ 1, ∀ count ≥ 1,
      ¬ ∀ name, name ∈ Dict.keys entries ↔ name ∈ indexNames first count) :
    classify entries = .object entries := by
  rcases classify_eq_object_or_runs entries with object | ⟨first, start, items, runs, -⟩
  · exact object
  · exact absurd (fun name => runs.perm.mem_iff.symm) (named first start entries.length runs.pos)

/-- The names of an object are its spots. -/
theorem kept_names {entries : List (String × Value)} (sorted : Dict.Sorted entries)
    (notNull : ∀ entry ∈ entries, entry.2.isNull = false) : kept (names entries) id = entries := by
  have all : filled (names entries) = names entries := by
    refine filled_of_notNull fun spot member => ?_
    obtain ⟨name, -, inside⟩ := mem_names.mp member
    exact notNull _ inside
  have back : (names entries).map (fun spot => (spot.1.text, id spot.2)) = entries := by
    rw [names, List.map_map]
    exact List.map_id entries
  rw [kept, all, back, Dict.ofList_of_sorted sorted]

theorem distinct_names {entries : List (String × Value)} (sorted : Dict.Sorted entries) :
    ((names entries).map fun spot => spot.1.text).Nodup := by
  have texts : (names entries).map (fun spot => spot.1.text) = Dict.keys entries := by
    rw [names, List.map_map]
    rfl
  rw [texts]
  exact sorted.nodup

/-- A stable value comes out of the engine as it went in. -/
theorem crosses_of_stable {levels : Nat} {value : Value} (stable : Stable levels value) :
    Crosses value value := by
  induction stable with
  | bool levels b => exact ⟨.bool b, rfl, rfl⟩
  | number levels real => exact ⟨.number _, rfl, rfl⟩
  | string levels text => exact ⟨.string text, rfl, rfl⟩
  | @list levels items nonempty _ each ih =>
      have children : ∀ child ∈ (Value.list items).children, Crosses child (id child) := ih
      have crossed := crosses_of_spots? rfl (distinct_positions items) children
      rwa [classify_kept_positions nonempty fun item member => isNull_of_stable (each item member)]
        at crossed
  | @object levels entries sorted named each ih =>
      have children : ∀ child ∈ (Value.object entries).children, Crosses child (id child) := by
        intro child member
        obtain ⟨entry, here, rfl⟩ := List.mem_map.mp member
        exact ih entry here
      have crossed := crosses_of_spots? rfl (distinct_names sorted) children
      rwa [kept_names sorted fun entry member => isNull_of_stable (each entry member),
        classify_of_named named] at crossed

end ScriptHost.Engine
