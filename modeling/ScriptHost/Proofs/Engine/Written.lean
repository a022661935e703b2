import ScriptHost.Proofs.Engine.Raise
import ScriptHost.Proofs.Wire.FirstNaN
import ScriptHost.Proofs.Wire.Inferred

set_option autoImplicit false

namespace ScriptHost.Engine

/-- The names of a value and of all values inside ascend, and there is no set. -/
def Setless (value : Value) : Prop :=
  ∀ part ∈ value.parts, part.NamesAscend ∧ ∀ items, part ≠ .set items

theorem setless_iff {value : Value} : Setless value ↔
    (value.NamesAscend ∧ ∀ items, value ≠ .set items) ∧ ∀ child ∈ value.children, Setless child :=
  Value.forall_mem_parts

theorem Setless.ordered {value : Value} (setless : Setless value) : value.Ordered :=
  fun part member => (setless part member).1

theorem setless_classify {d : List (String × Value)} (sorted : Dict.Sorted d)
    (inside : ∀ entry ∈ d, Setless entry.2) : Setless (classify d) := by
  rcases classify_eq_object_or_runs d with object | ⟨first, -, items, runs, list⟩
  · rw [object]
    exact setless_iff.mpr ⟨⟨sorted, by simp⟩, List.forall_mem_map.mpr inside⟩
  · rw [list]
    refine setless_iff.mpr ⟨⟨trivial, by simp⟩, fun item member => ?_⟩
    obtain ⟨entry, here, rfl⟩ := List.mem_map.mp (runs.perm_values.mem_iff.mp member)
    exact inside entry here

theorem setless_of_raise {tree : Tree} {value : Value} (raised : raise tree = .ok value) :
    Setless value := by
  induction tree generalizing value with
  | table entries ih =>
      obtain ⟨d, ⟨sorted, found⟩, rfl⟩ := exists_collects raised
      refine setless_classify sorted fun entry member => ?_
      obtain ⟨last, ⟨before, key, after, split, -⟩, held⟩ :=
        (found entry.1 entry.2).mp ((Dict.get?_eq_some_iff sorted.nodup).mpr member)
      exact ih (key, last) (by simp [split]) held
  | foreign name => cases raised
  | _ =>
      cases raised
      exact setless_iff.mpr ⟨⟨trivial, by simp⟩, List.forall_mem_nil _⟩

theorem Setless.setsAgree {value : Value} (setless : Setless value) : value.SetsAgree := by
  intro part member
  have other := (setless part member).2
  cases part with
  | set items => exact absurd rfl (other items)
  | _ => trivial

theorem Setless.fits {value : Value} (setless : Setless value) : Fits value .dynamic :=
  (fits_dynamic_iff setless.ordered).mpr fun _ _ forces =>
    absurd forces setless.setsAgree.not_forces

theorem setless_of_returned {result : Option Tree} {value : Value}
    (returned : raiseReturn result = .ok value) : Setless value := by
  cases result with
  | none => cases returned
  | some tree =>
      cases tree with
      | nil => cases returned
      | _ => exact setless_of_raise returned

/-- Exactly a result with a NaN inside cannot be written. The failure names the first one in the
order of items and of names, which ascend. -/
theorem encode_returned {result : Option Tree} {value : Value}
    (returned : raiseReturn result = .ok value) :
    value.Ordered ∧ ((∃ e, Wire.encode value .dynamic = .error e) ↔ value.HasNaN) ∧
      ∀ e, Wire.encode value .dynamic = .error e →
        ∃ path, value.nanPaths.head? = some path ∧
          e = .encode .binary (Wire.pathText path) "NaN is not a valid number" := by
  have setless := setless_of_returned returned
  have fails := Wire.Binary.failsAt_document setless.fits setless.ordered Value.ordered_dynamic
  simp only [Wire.encode_eq_error_iff]
  refine ⟨setless.ordered, ?_, ?_⟩
  · have refused := fails.exists_error_iff.trans Value.nanPaths_eq_nil_iff.not_left
    rw [← refused]
    constructor
    · rintro ⟨_, failure, failed, -⟩
      exact ⟨failure, failed⟩
    · rintro ⟨failure, failed⟩
      exact ⟨_, failure, failed, rfl⟩
  · rintro _ ⟨failure, failed, rfl⟩
    obtain ⟨first, cause⟩ := fails.head?_of_error failed
    refine ⟨failure.path, first, ?_⟩
    rw [Wire.Error.ofEncode, cause]
    rfl

/-- Items of three types, of which the second holds the first NaN. -/
theorem encode_returned_mixed :
    let pair := Tree.table [(.integer 1, .bool true), (.integer 2, .string "a")]
    let named := Tree.table [(.string "b", .number (.nan false)), (.string "a", .nil)]
    let tree := Tree.table
      [(.integer 3, .number (.nan false)), (.integer 1, pair), (.integer 2, named)]
    ∃ value, raiseReturn (some tree) = .ok value ∧
      Wire.encode value .dynamic =
        .error (.encode .binary "[1].b" "NaN is not a valid number") := by
  intro pair named tree
  let value := Value.list [.list [.bool true, .string "a"],
    .object [("a", .null), ("b", .number (.nan false))], .number (.nan false)]
  have returned : raiseReturn (some tree) = .ok value := rfl
  have here : Value.number (.nan false) ∈ value.parts := by
    simp [value, Value.parts, Value.partsOfItems, Value.partsOfEntries]
  obtain ⟨-, fails, first⟩ := encode_returned returned
  obtain ⟨e, failed⟩ := fails.mpr ⟨_, here, rfl⟩
  obtain ⟨path, head, rfl⟩ := first e failed
  have leads : value.nanPaths.head? = some [.index 1, .name "b"] := rfl
  cases head.symm.trans leads
  exact ⟨value, returned, failed⟩

end ScriptHost.Engine
