import ScriptHost.Proofs.Engine.Cross
import ScriptHost.Script.Machine

set_option autoImplicit false

namespace ScriptHost.Engine

open Script (Heap Machine.start)

/-- A value holds another at a number: a list as that item, an object under the text of the
number. -/
def FoundAt (position : Nat) (found : Value) : Value → Prop
  | .list items => items[position]? = some found
  | .object entries => Dict.get? entries (toString position) = some found
  | _ => False

/-- A dictionary named by numbers keeps them all, unless they are the numbers from one on. -/
theorem foundAt_classify_iff {d : List (String × Value)} (distinct : (Dict.keys d).Nodup)
    (numbers : ∀ name ∈ Dict.keys d, ∃ i : Nat, toString i = name) :
    (∀ (i : Nat) value, Dict.get? d (toString i) = some value → FoundAt i value (classify d)) ↔
      ¬ ∃ count ≥ 1, ∀ i : Nat, toString i ∈ Dict.keys d ↔ 1 ≤ i ∧ i ≤ count := by
  constructor
  · rintro found ⟨count, pos, exact⟩
    have range : ∀ i : Nat, toString i ∈ Dict.keys d ↔ 1 ≤ i ∧ i < 1 + count := by
      intro i
      rw [exact i]
      omega
    obtain ⟨names, length⟩ := perm_indexNames distinct numbers range
    have nonempty : d ≠ [] := List.ne_nil_of_length_pos (by omega)
    obtain ⟨items, runs⟩ := exists_runs nonempty fun name member =>
      names.mem_iff.mpr (length ▸ member)
    -- the last value has moved to the number before its own
    have last : toString count ∈ Dict.keys d := (exact count).mpr (by omega)
    obtain ⟨value, there⟩ := Option.isSome_iff_exists.mp (Dict.contains_iff.mpr last)
    have moved := found count value there
    rw [classify_of_runs (Nat.le_refl 1) runs] at moved
    have beyond : items[count]? = none := List.getElem?_eq_none (by rw [runs.length, length])
    rw [FoundAt, beyond] at moved
    cases moved
  · intro gap i value there
    rcases classify_eq_object_or_runs d with object | ⟨first, start, items, runs, list⟩
    · rw [object]
      exact there
    · have member : toString i ∈ Dict.keys d := Dict.mem_keys_of_mem (Dict.mem_of_get? there)
      by_cases zero : first = 0
      · subst zero
        have inside := runs.toString_mem_keys_iff.mp member
        have found := runs.get? (show i < d.length by omega)
        rw [Nat.zero_add, there] at found
        rw [list]
        exact found.symm
      · obtain rfl : first = 1 := by omega
        refine absurd ⟨d.length, runs.pos, fun j => ?_⟩ gap
        rw [runs.toString_mem_keys_iff]
        omega

section Sequence

variable {items : List Value} {result : Value → Value}

theorem toString_mem_keys_kept {i : Nat} : toString i ∈ Dict.keys (kept (positions items) result) ↔
    ∃ item, items[i]? = some item ∧ item.isNull = false := by
  rw [mem_keys_kept]
  constructor
  · rintro ⟨⟨key, item⟩, member, there, text⟩
    obtain ⟨j, rfl, found⟩ := mem_positions.mp member
    obtain rfl : j = i := toString_injective text
    exact ⟨item, found, there⟩
  · rintro ⟨item, found, there⟩
    exact ⟨(.integer i, item), mem_positions.mpr ⟨i, rfl, found⟩, there, rfl⟩

theorem get?_kept_positions {i : Nat} {value : Value} :
    Dict.get? (kept (positions items) result) (toString i) = some value ↔
      ∃ item, items[i]? = some item ∧ item.isNull = false ∧ result item = value := by
  rw [get?_kept (distinct_positions items)]
  constructor
  · rintro ⟨⟨key, item⟩, member, there, text, same⟩
    obtain ⟨j, rfl, found⟩ := mem_positions.mp member
    obtain rfl : j = i := toString_injective text
    exact ⟨item, found, there, same⟩
  · rintro ⟨item, found, there, same⟩
    exact ⟨(.integer i, item), mem_positions.mpr ⟨i, rfl, found⟩, there, rfl, same⟩

theorem number_of_mem_keys_kept {name : String}
    (member : name ∈ Dict.keys (kept (positions items) result)) : ∃ i : Nat, toString i = name := by
  obtain ⟨⟨key, item⟩, placed, -, text⟩ := mem_keys_kept.mp member
  obtain ⟨i, rfl, -⟩ := mem_positions.mp placed
  exact ⟨i, text⟩

end Sequence

theorem isNull_eq_false_iff {value : Value} : value.isNull = false ↔ value ≠ .null := by
  cases value <;> simp [Value.isNull]

/-- Every item of a sequence that is not null is where it was, unless the items that are not null
stand at the numbers from one on and nowhere else: these come out as a list from zero on. -/
theorem cross_in_place_iff {value : Value} {items : List Value}
    (sequence : value.items? = some items) (known : value.Known) (h : Heap) :
    ∃ result, cross h value = .ok result ∧
      ((∀ i item, items[i]? = some item → item ≠ .null →
          ∃ own, cross h item = .ok own ∧ FoundAt i own result) ↔
        ¬ ∃ count ≥ 1, ∀ i,
          (∃ item, items[i]? = some item ∧ item ≠ .null) ↔ 1 ≤ i ∧ i ≤ count) := by
  have children : value.children = items := Value.children_of_items? sequence
  have knownItems : ∀ item ∈ items, item.Known := children ▸ (Value.known_iff.mp known).2
  choose! own crosses using fun item member => exists_crosses (knownItems item member)
  have crossed := crosses_of_spots? (spots?_of_items? sequence) (distinct_positions items)
    (children ▸ crosses)
  refine ⟨_, (cross_eq_ok_iff known).mpr crossed, ?_⟩
  have decided := foundAt_classify_iff (nodup_keys_kept (positions items) own)
    fun name member => number_of_mem_keys_kept member
  simp only [toString_mem_keys_kept, isNull_eq_false_iff] at decided
  rw [← decided]
  constructor
  · intro found i result there
    obtain ⟨item, inside, notNull, rfl⟩ := get?_kept_positions.mp there
    obtain ⟨other, crossed', place⟩ := found i item inside (isNull_eq_false_iff.mp notNull)
    have member : item ∈ items := List.mem_of_getElem? inside
    rw [(cross_eq_ok_iff (knownItems item member)).mpr (crosses item member)] at crossed'
    cases crossed'
    exact place
  · intro found i item inside notNull
    have member : item ∈ items := List.mem_of_getElem? inside
    refine ⟨own item, (cross_eq_ok_iff (knownItems item member)).mpr (crosses item member), ?_⟩
    exact found i (own item)
      (get?_kept_positions.mpr ⟨item, inside, isNull_eq_false_iff.mpr notNull, rfl⟩)

/-- A sequence of which only the first item is null moves. -/
theorem cross_in_place_iff_shifted :
    ∃ result, cross Machine.start (.list [.null, .bool true]) = .ok result ∧
      ((∀ i item, [.null, .bool true][i]? = some item → item ≠ .null →
          ∃ own, cross Machine.start item = .ok own ∧ FoundAt i own result) ↔
        ¬ ∃ count ≥ 1, ∀ i,
          (∃ item, [Value.null, .bool true][i]? = some item ∧ item ≠ .null) ↔ 1 ≤ i ∧ i ≤ count) :=
  cross_in_place_iff rfl (by simp [Value.Known, Value.parts, Value.partsOfItems]) Machine.start

/-- A null in front moves what stands behind it: it leaves no entry, and the entries behind it count
from one. -/
theorem cross_shifts_behind_null :
    ¬ ∀ (value : Value) (items : List Value), value.items? = some items → value.Known →
      ∃ result, cross Machine.start value = .ok result ∧
        ∀ i item, items[i]? = some item → item ≠ .null →
          ∃ own, cross Machine.start item = .ok own ∧ FoundAt i own result := by
  intro claim
  have crossed : cross Machine.start (.list [.null, .bool true]) = .ok (.list [.bool true]) := rfl
  have known : (Value.list [.null, .bool true]).Known := by
    simp [Value.Known, Value.parts, Value.partsOfItems]
  obtain ⟨result, crossed', found⟩ := claim _ _ rfl known
  rw [crossed] at crossed'
  cases crossed'
  obtain ⟨own, -, place⟩ := found 1 (.bool true) rfl (by simp)
  simp [FoundAt] at place

end ScriptHost.Engine
