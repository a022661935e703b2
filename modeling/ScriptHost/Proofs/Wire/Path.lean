import Mathlib.Data.List.Forall2
import ScriptHost.Wire.Path

set_option autoImplicit false

namespace ScriptHost.Wire

variable {ε α β : Type}

theorem under_eq_ok {step : Step} {outcome : Except (Located ε) α} {result : α} :
    under step outcome = .ok result ↔ outcome = .ok result := by
  cases outcome <;> simp [under]

theorem map_eq_ok {outcome : Except ε α} {f : α → β} {result : β} :
    outcome.map f = .ok result ↔ ∃ value, outcome = .ok value ∧ f value = result := by
  cases outcome <;> simp [Except.map]

theorem map_eq_error {outcome : Except ε α} {f : α → β} {e : ε} :
    outcome.map f = .error e ↔ outcome = .error e := by
  cases outcome <;> simp [Except.map]

theorem mapError_eq_ok {δ : Type} {outcome : Except ε α} {f : ε → δ} {result : α} :
    outcome.mapError f = .ok result ↔ outcome = .ok result := by
  cases outcome <;> simp [Except.mapError]

theorem mapError_eq_error {δ : Type} {outcome : Except ε α} {f : ε → δ} {e : δ} :
    outcome.mapError f = .error e ↔ ∃ cause, outcome = .error cause ∧ f cause = e := by
  cases outcome <;> simp [Except.mapError]

theorem collect_eq_ok {position : Nat} {outcomes : List (Except (Located ε) α)}
    {results : List α} : collect position outcomes = .ok results ↔ outcomes = results.map .ok := by
  induction outcomes generalizing position results with
  | nil => cases results <;> simp [collect]
  | cons outcome rest ih =>
      rw [collect]
      cases first : under (.index position) outcome with
      | error failure =>
          have failed : ∀ result, outcome ≠ .ok result := by
            rintro result rfl
            cases first
          cases results <;> simp [failed]
      | ok result =>
          rw [under_eq_ok] at first
          cases results with
          | nil => simp [map_eq_ok]
          | cons value more => simp [map_eq_ok, ih, first, and_comm]

theorem collectNamed_eq_ok {outcomes : List (String × Except (Located ε) α)}
    {results : List (String × α)} : collectNamed outcomes = .ok results ↔
      outcomes = results.map fun entry => (entry.1, .ok entry.2) := by
  induction outcomes generalizing results with
  | nil => cases results <;> simp [collectNamed]
  | cons entry rest ih =>
      obtain ⟨key, outcome⟩ := entry
      rw [collectNamed]
      cases first : under (.name key) outcome with
      | error failure =>
          have failed : ∀ result, outcome ≠ .ok result := by
            rintro result rfl
            cases first
          cases results <;> simp [failed]
      | ok result =>
          rw [under_eq_ok] at first
          cases results with
          | nil => simp [map_eq_ok]
          | cons entry more =>
              simp only [map_eq_ok, ih, first, List.map_cons, List.cons.injEq, Prod.ext_iff,
                Except.ok.injEq]
              constructor
              · rintro ⟨_, rfl, ⟨name, value⟩, rest⟩
                exact ⟨⟨name, value⟩, rest ▸ rfl⟩
              · rintro ⟨⟨name, value⟩, rest⟩
                exact ⟨more, rest, ⟨name, value⟩, rfl⟩

/-- What holds of a result that comes of a place holds of all results, and they have the labels of
their places. -/
theorem of_map_eq {γ τ : Type} {f : α → γ} {g : β → γ} {labelOf : α → τ} {label : β → τ}
    {P : β → Prop} {places : List α} {results : List β} (same : places.map f = results.map g)
    (each : ∀ place ∈ places, ∀ result, f place = g result →
      label result = labelOf place ∧ P result) :
    results.map label = places.map labelOf ∧ ∀ result ∈ results, P result := by
  induction places generalizing results with
  | nil => cases results <;> simp at same ⊢
  | cons place places ih =>
      cases results with
      | nil => simp at same
      | cons result results =>
          simp only [List.map_cons, List.cons.injEq] at same
          obtain ⟨labelled, holds⟩ := each place (by simp) result same.1
          obtain ⟨labels, others⟩ := ih same.2 fun other member =>
            each other (List.mem_cons_of_mem _ member)
          constructor
          · rw [List.map_cons, List.map_cons, labelled, labels]
          · exact List.forall_mem_cons.mpr ⟨holds, others⟩

theorem under_map (f : α → β) (step : Step) (outcome : Except (Located ε) α) :
    under step (outcome.map f) = (under step outcome).map f := by
  cases outcome <;> rfl

theorem collect_map (f : α → β) (position : Nat) (outcomes : List (Except (Located ε) α)) :
    collect position (outcomes.map (·.map f)) = (collect position outcomes).map (List.map f) := by
  induction outcomes generalizing position with
  | nil => rfl
  | cons outcome rest ih =>
      rw [List.map_cons, collect, collect, under_map, ih]
      cases under (.index position) outcome with
      | error failure => rfl
      | ok result => cases collect (position + 1) rest <;> rfl

theorem collectNamed_map (f : α → β) (outcomes : List (String × Except (Located ε) α)) :
    collectNamed (outcomes.map fun entry => (entry.1, entry.2.map f)) =
      (collectNamed outcomes).map (List.map fun entry => (entry.1, f entry.2)) := by
  induction outcomes with
  | nil => rfl
  | cons entry rest ih =>
      obtain ⟨key, outcome⟩ := entry
      rw [List.map_cons, collectNamed, collectNamed, under_map, ih]
      cases under (.name key) outcome with
      | error failure => rfl
      | ok result => cases collectNamed rest <;> rfl

end ScriptHost.Wire
