import Mathlib.Data.List.Forall2
import Mathlib.Tactic.ByContra
import ScriptHost.Proofs.Parts

set_option autoImplicit false

namespace ScriptHost.Value

theorem not_hasNaN_iff {value : Value} : ¬ value.HasNaN ↔
    (∀ x, value = number x → x.isNaN = false) ∧ ∀ child ∈ value.children, ¬ child.HasNaN := by
  have general (value : Value) :
      ¬ value.HasNaN ↔ ∀ part ∈ value.parts, ∀ x, part = number x → x.isNaN = false := by
    unfold HasNaN
    constructor
    · intro none part member x same
      by_contra bad
      exact none ⟨x, same ▸ member, by simpa using bad⟩
    · rintro all ⟨x, member, bad⟩
      rw [all _ member x rfl] at bad
      cases bad
  simp only [general]
  exact forall_mem_parts

theorem not_hasNaN_of_scalar {value : Value} (scalar : value.children = [])
    (number : ∀ x, value = number x → x.isNaN = false) : ¬ value.HasNaN :=
  not_hasNaN_iff.mpr ⟨number, by simp [scalar]⟩

theorem equalItems_iff {items others : List Value} : equalItems items others = true ↔
    List.Forall₂ (fun item other => item.equal other = true) items others := by
  induction items generalizing others with
  | nil => cases others <;> simp [equalItems]
  | cons item rest ih => cases others <;> simp [equalItems, ih]

theorem equalEntries_iff {entries others : List (String × Value)} :
    equalEntries entries others = true ↔ List.Forall₂ (fun entry other =>
      entry.1 = other.1 ∧ entry.2.equal other.2 = true) entries others := by
  induction entries generalizing others with
  | nil => cases others <;> simp [equalEntries]
  | cons entry rest ih => cases others <;> simp [equalEntries, ih]

/-- A value is equal to itself unless a number inside is NaN. -/
theorem equal_self_iff {value : Value} : value.equal value = true ↔ ¬ value.HasNaN := by
  induction value with
  | number x =>
      rw [not_hasNaN_iff]
      simp [equal, Binary64.equal, children]
  | list items ih | set items ih | tuple items ih =>
      rw [equal, equalItems_iff, List.forall₂_same, not_hasNaN_iff]
      simp only [reduceCtorEq, false_implies, implies_true, true_and, children]
      exact forall₂_congr ih
  | map entries ih | object entries ih =>
      rw [equal, equalEntries_iff, List.forall₂_same, not_hasNaN_iff]
      simp only [reduceCtorEq, false_implies, implies_true, true_and, children, List.forall_mem_map]
      exact forall₂_congr ih
  | _ =>
      rw [not_hasNaN_iff]
      simp [equal, children]

end ScriptHost.Value
