import Mathlib.Data.List.Basic
import ScriptHost.Text.Pattern

set_option autoImplicit false

namespace ScriptHost.Pattern

variable {before : Option Char} {s : List Char} {m : Match}

theorem mem_boundary : m ∈ boundary.matchesAt before s ↔
    isWord before ≠ isWord s.head? ∧ m = ⟨[], s, []⟩ := by
  rw [matchesAt]
  by_cases same : isWord before = isWord s.head? <;> simp [same]

theorem mem_literal {text : List Char} : m ∈ (literal text).matchesAt before s ↔
    ∃ rest, s = text ++ rest ∧ m = ⟨text, rest, []⟩ := by
  rw [matchesAt]
  split
  · rename_i found
    obtain ⟨rest, rfl⟩ := List.isPrefixOf_iff_prefix.mp found
    simp
  · rename_i missing
    refine iff_of_false List.not_mem_nil ?_
    rintro ⟨rest, rfl, -⟩
    exact missing (List.isPrefixOf_iff_prefix.mpr (List.prefix_append text rest))

theorem mem_one {accepts : Char → Bool} : m ∈ (one accepts).matchesAt before s ↔
    ∃ c rest, s = c :: rest ∧ accepts c = true ∧ m = ⟨[c], rest, []⟩ := by
  cases s with
  | nil => simp [matchesAt]
  | cons c s =>
      rw [matchesAt]
      by_cases accepted : accepts c = true <;> simp_all

theorem mem_many {accepts : Char → Bool} : m ∈ (many accepts).matchesAt before s ↔
    ∃ run rest, s = run ++ rest ∧ (∀ c ∈ run, accepts c = true) ∧ m = ⟨run, rest, []⟩ := by
  rw [matchesAt]
  induction s generalizing m with
  | nil => simp [runs]
  | cons c s ih =>
      rw [runs, List.mem_append, List.mem_singleton]
      constructor
      · rintro (longer | rfl)
        · split at longer
          · rename_i accepted
            obtain ⟨shorter, member, rfl⟩ := List.mem_map.mp longer
            obtain ⟨run, rest, rfl, all, rfl⟩ := ih.mp member
            exact ⟨c :: run, rest, rfl, List.forall_mem_cons.mpr ⟨accepted, all⟩, rfl⟩
          · cases longer
        · exact ⟨[], c :: s, rfl, List.forall_mem_nil _, rfl⟩
      · rintro ⟨run, rest, split, all, rfl⟩
        cases run with
        | nil => exact .inr (by rw [split]; rfl)
        | cons d run =>
            obtain ⟨rfl, rfl⟩ := List.cons.inj split
            obtain ⟨accepted, others⟩ := List.forall_mem_cons.mp all
            rw [if_pos accepted]
            exact .inl (List.mem_map.mpr ⟨_, ih.mpr ⟨run, rest, rfl, others, rfl⟩, rfl⟩)

theorem mem_both {first second : Pattern} : m ∈ (both first second).matchesAt before s ↔
    ∃ a ∈ first.matchesAt before s, ∃ b ∈ second.matchesAt (a.taken.getLast?.or before) a.rest,
      m = ⟨a.taken ++ b.taken, b.rest, b.groups ++ a.groups⟩ := by
  simp only [matchesAt, List.mem_flatMap, List.mem_map, eq_comm]

theorem mem_maybe {inner : Pattern} : m ∈ (maybe inner).matchesAt before s ↔
    m ∈ inner.matchesAt before s ∨ m = ⟨[], s, []⟩ := by
  rw [matchesAt, List.mem_append, List.mem_singleton]

theorem mem_group {name : String} {inner : Pattern} :
    m ∈ (group name inner).matchesAt before s ↔
      ∃ a ∈ inner.matchesAt before s, m = ⟨a.taken, a.rest, (name, a.taken) :: a.groups⟩ := by
  simp only [matchesAt, List.mem_map, eq_comm]

variable {p : Pattern} {skip place : Nat} {c : Char}

theorem searchFrom_skip : p.searchFrom (skip + 1) place before (c :: s) =
    p.searchFrom skip (place + 1) (some c) s := rfl

theorem searchFrom_of_match (preferred : (p.matchesAt before (c :: s)).head? = some m) :
    p.searchFrom 0 place before (c :: s) =
      (place, m) :: p.searchFrom (m.taken.length - 1) (place + 1) (some c) s := by
  simp only [searchFrom, preferred]

theorem searchFrom_of_none (none : p.matchesAt before (c :: s) = []) :
    p.searchFrom 0 place before (c :: s) = p.searchFrom 0 (place + 1) (some c) s := by
  simp only [searchFrom, none, List.head?_nil]

/-- A match begins where the search has come to, or later. -/
theorem le_of_mem_searchFrom {found : Nat × Match}
    (member : found ∈ p.searchFrom skip place before s) : place + skip ≤ found.1 := by
  induction s generalizing skip place before with
  | nil => cases member
  | cons c s ih =>
      cases skip with
      | succ skip =>
          rw [searchFrom_skip] at member
          have later := ih member
          omega
      | zero =>
          cases preferred : (p.matchesAt before (c :: s)).head? with
          | none =>
              rw [searchFrom_of_none (List.head?_eq_none_iff.mp preferred)] at member
              have later := ih member
              omega
          | some m =>
              rw [searchFrom_of_match preferred] at member
              rcases List.mem_cons.mp member with rfl | behind
              · exact Nat.le_refl place
              · have later := ih behind
                omega

/-- The matches come in the order of their places, and no two of them begin at one place. -/
theorem pairwise_searchFrom :
    (p.searchFrom skip place before s).Pairwise fun found other => found.1 < other.1 := by
  induction s generalizing skip place before with
  | nil => exact List.Pairwise.nil
  | cons c s ih =>
      cases skip with
      | succ skip => exact ih
      | zero =>
          cases preferred : (p.matchesAt before (c :: s)).head? with
          | none =>
              rw [searchFrom_of_none (List.head?_eq_none_iff.mp preferred)]
              exact ih
          | some m =>
              rw [searchFrom_of_match preferred]
              refine List.pairwise_cons.mpr ⟨fun other member => ?_, ih⟩
              have later := le_of_mem_searchFrom member
              omega

end ScriptHost.Pattern
