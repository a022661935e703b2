import Mathlib.Data.List.Forall2
import Mathlib.Data.List.Perm.Subperm
import Mathlib.Tactic.Choose
import ScriptHost.Engine.Raise
import ScriptHost.Proofs.Dict

set_option autoImplicit false

namespace ScriptHost.Engine

theorem toString_injective {m n : Nat} (same : toString m = toString n) : m = n := by
  have digits : Nat.toDigits 10 m = Nat.toDigits 10 n := by
    rw [← Nat.toList_repr, ← Nat.toList_repr]
    exact congrArg String.toList same
  have back (k : Nat) : Nat.ofDigitChars 10 (Nat.toDigits 10 k) 0 = k :=
    Nat.ofDigitChars_toDigits (by decide) (by decide)
  rw [← back m, ← back n, digits]

theorem length_indexNames (first count : Nat) : (indexNames first count).length = count := by
  simp [indexNames]

theorem mem_indexNames {name : String} {first count : Nat} :
    name ∈ indexNames first count ↔ ∃ i, first ≤ i ∧ i < first + count ∧ toString i = name := by
  simp [indexNames, and_assoc]

theorem toString_mem_indexNames {i first count : Nat} :
    toString i ∈ indexNames first count ↔ first ≤ i ∧ i < first + count := by
  rw [mem_indexNames]
  constructor
  · rintro ⟨j, atLeast, less, same⟩
    rw [← toString_injective same]
    exact ⟨atLeast, less⟩
  · rintro ⟨atLeast, less⟩
    exact ⟨i, atLeast, less, rfl⟩

theorem nodup_indexNames (first count : Nat) : (indexNames first count).Nodup :=
  List.Nodup.map (fun _ _ => toString_injective) List.nodup_range'

theorem slots_eq_some_iff {names : List String} {d : List (String × Value)} {items : List Value} :
    slots names d = some items ↔
      List.Forall₂ (fun name item => Dict.get? d name = some item) names items := by
  induction names generalizing items with
  | nil => cases items <;> simp [slots]
  | cons name rest ih =>
      have step : slots (name :: rest) d =
          (Dict.get? d name).bind fun item => (slots rest d).map (item :: ·) := by
        simp only [Option.map_eq_bind]
        exact List.mapM_cons
      rw [step]
      cases found : Dict.get? d name with
      | none => cases items <;> simp [found]
      | some item =>
          cases items with
          | nil => simp
          | cons other items =>
              rw [List.forall₂_cons, ← ih, found]
              simp [and_comm]

/-- The names of a dictionary count from a number on, and the items stand under them in order. -/
structure Runs (first : Nat) (d : List (String × Value)) (items : List Value) : Prop where
  nonempty : d ≠ []
  each : List.Forall₂ (fun name item => Dict.get? d name = some item)
    (indexNames first d.length) items

section Runs

variable {first : Nat} {d : List (String × Value)} {items : List Value}

theorem Runs.length (runs : Runs first d items) : items.length = d.length := by
  rw [← runs.each.length_eq, length_indexNames]

theorem Runs.pos (runs : Runs first d items) : 0 < d.length :=
  List.length_pos_iff.mpr runs.nonempty

theorem Runs.get? (runs : Runs first d items) {i : Nat} (inside : i < d.length) :
    Dict.get? d (toString (first + i)) = items[i]? := by
  have here : i < items.length := runs.length ▸ inside
  have named : i < (indexNames first d.length).length := by rwa [length_indexNames]
  have found := runs.each.get named here
  rw [List.getElem?_eq_getElem here]
  simpa [indexNames] using found

/-- As many names as there are numbers leave no room for others. -/
theorem Runs.perm (runs : Runs first d items) :
    (indexNames first d.length).Perm (Dict.keys d) := by
  have inside : indexNames first d.length ⊆ Dict.keys d := by
    intro name member
    obtain ⟨k, atLeast, less, rfl⟩ := mem_indexNames.mp member
    have found := runs.get? (show k - first < d.length by omega)
    have here : k - first < items.length := by
      have := runs.length
      omega
    rw [show first + (k - first) = k by omega, List.getElem?_eq_getElem here] at found
    exact Dict.mem_keys_of_mem (Dict.mem_of_get? found)
  have subperm := (nodup_indexNames first d.length).subperm inside
  refine subperm.perm_of_length_le ?_
  rw [length_indexNames, Dict.keys, List.length_map]

theorem Runs.toString_mem_keys_iff (runs : Runs first d items) {i : Nat} :
    toString i ∈ Dict.keys d ↔ first ≤ i ∧ i < first + d.length := by
  rw [← runs.perm.mem_iff, toString_mem_indexNames]

/-- Where the names are the numbers from one on, all the items are there. -/
theorem exists_runs (nonempty : d ≠ [])
    (names : ∀ name ∈ indexNames first d.length, name ∈ Dict.keys d) :
    ∃ items, Runs first d items := by
  have found : ∀ name ∈ indexNames first d.length, ∃ item, Dict.get? d name = some item := by
    intro name member
    have there := Dict.contains_iff.mpr (names name member)
    exact Option.isSome_iff_exists.mp there
  choose! item found using found
  refine ⟨(indexNames first d.length).map item, nonempty, ?_⟩
  rw [List.forall₂_map_right_iff, List.forall₂_same]
  exact found

end Runs

/-- Names that are numbers from a first one on are known by how many they are. -/
theorem perm_indexNames {d : List (String × Value)} {first count : Nat}
    (distinct : (Dict.keys d).Nodup) (numbers : ∀ name ∈ Dict.keys d, ∃ i : Nat, toString i = name)
    (exact : ∀ i : Nat, toString i ∈ Dict.keys d ↔ first ≤ i ∧ i < first + count) :
    (Dict.keys d).Perm (indexNames first count) ∧ d.length = count := by
  have names : (Dict.keys d).Perm (indexNames first count) := by
    rw [List.perm_ext_iff_of_nodup distinct (nodup_indexNames first count)]
    intro name
    constructor
    · intro member
      obtain ⟨i, rfl⟩ := numbers name member
      exact toString_mem_indexNames.mpr ((exact i).mp member)
    · intro member
      obtain ⟨i, atLeast, less, rfl⟩ := mem_indexNames.mp member
      exact (exact i).mpr ⟨atLeast, less⟩
  refine ⟨names, ?_⟩
  rw [← length_indexNames first count, ← names.length_eq, Dict.keys, List.length_map]

theorem classify_of_runs {first : Nat} {d : List (String × Value)} {items : List Value}
    (start : first ≤ 1) (runs : Runs first d items) :
    classify d = .list items := by
  have zero : Dict.contains d "0" = true ↔ first = 0 := by
    have pos := runs.pos
    have named : toString 0 ∈ Dict.keys d ↔ first ≤ 0 ∧ 0 < first + d.length :=
      runs.toString_mem_keys_iff
    rw [Dict.contains_iff]
    exact named.trans (by omega)
  have offset : (if Dict.contains d "0" then 0 else 1) = first := by
    by_cases counts : first = 0
    · rw [if_pos (zero.mpr counts), counts]
    · rw [if_neg (mt zero.mp counts)]
      omega
  have nonempty : d.isEmpty = false := by simp [runs.nonempty]
  simp only [classify, nonempty, offset, slots_eq_some_iff.mpr runs.each]
  rfl

theorem classify_eq_object_or_runs (d : List (String × Value)) :
    classify d = .object d ∨
      ∃ first ≤ 1, ∃ items, Runs first d items ∧ classify d = .list items := by
  by_cases empty : d = []
  · subst empty
    exact .inl rfl
  · have nonempty : d.isEmpty = false := by simp [empty]
    simp only [classify, nonempty]
    cases found : slots (indexNames (if Dict.contains d "0" then 0 else 1) d.length) d with
    | none => exact .inl (by simp)
    | some items =>
        refine .inr ⟨_, ?_, items, ⟨empty, slots_eq_some_iff.mp found⟩, by simp⟩
        split <;> omega

end ScriptHost.Engine
