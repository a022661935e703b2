import ScriptHost.Proofs.Number.Value
import ScriptHost.Proofs.Wire.Rewrite

set_option autoImplicit false

namespace ScriptHost

namespace Binary64

/-- What comes back for a number is equal to it, and is the number itself if it is not integral. -/
structure Carried (x back : Binary64) : Prop where
  equal : back.equal x = true
  same : x.integral = none → back = x

theorem carried_unsignZero {x : Binary64} (number : x.isNaN = false) : Carried x x.unsignZero where
  equal := by rw [equal_comm, equal_unsignZero number]
  same := unsignZero_of_integral_eq_none

end Binary64

namespace Value

theorem toJson_number {x : Binary64} (finite : x.isFinite = true) :
    toJson (.number x) = x.integral.elim (.float x) .integer := by
  rw [toJson, numberToJson]
  cases x.integral with
  | some n => rfl
  | none => exact if_pos finite

/-- Plain JSON has room for every finite number. -/
theorem exists_carried {x : Binary64} (finite : x.isFinite = true) :
    ∃ back, ofJson (toJson (.number x)) = .number back ∧ x.Carried back := by
  have number := Binary64.isNaN_of_isFinite finite
  rw [toJson_number finite]
  cases whole : x.integral with
  | some n =>
      refine ⟨x.unsignZero, ?_, Binary64.carried_unsignZero number⟩
      rw [Option.elim_some, ofJson, ofInt, Binary64.ofInt_of_integral whole]
  | none => exact ⟨x, rfl, Binary64.equal_self number, fun _ => rfl⟩

end Value

namespace Wire

theorem ordered_type : Ty.number.Ordered := Ty.ordered_iff.mpr ⟨trivial, List.forall_mem_nil _⟩

theorem ordered_number (x : Binary64) : (Value.number x).Ordered :=
  Value.ordered_iff.mpr ⟨trivial, List.forall_mem_nil _⟩

namespace Binary

theorem document_number {x : Binary64} (number : x.isNaN = false) :
    document (.number x) .number = .ok (x.integral.elim (.double x) .integer) :=
  write_number_eq_ok.mpr ⟨rfl, number, rfl⟩

/-- The binary form has room for every number. -/
theorem exists_carried {x : Binary64} (number : x.isNaN = false) :
    ∃ bytes back, encode (.number x) .number = .ok bytes ∧
      decode bytes .number = .ok (.number back) ∧ x.Carried back := by
  have made := document_number number
  have scalar : (x.integral.elim (.double x) .integer : MsgPack).children = [] := by
    cases x.integral <;> rfl
  have sized : (x.integral.elim (.double x) .integer : MsgPack).Sized := by
    apply MsgPack.sized_iff.mpr
    rw [scalar]
    refine ⟨?_, List.forall_mem_nil _⟩
    have some : 0 < MsgPack.lengthLimit := by decide
    cases x.integral <;> exact some
  have legible : (x.integral.elim (.double x) .integer : MsgPack).Legible := by
    apply MsgPack.legible_of_scalar scalar
    cases x.integral <;> simp
  have shallow := Nat.le_trans (MsgPack.nesting_of_scalar scalar)
    (show 3 ≤ MsgPack.depthBudget by decide)
  have read := decode_written (ordered_number x) ordered_type made sized legible shallow
  exact ⟨_, _, map_eq_ok.mpr ⟨_, made, rfl⟩, read, Binary64.carried_unsignZero number⟩

end Binary

namespace Text

theorem document_number {x : Binary64} (finite : x.isFinite = true) :
    document (.number x) .number = .ok (x.integral.elim (.float x) .integer) :=
  writeNumber_eq_ok.mpr ⟨finite, rfl⟩

/-- The text form has room for every finite number. -/
theorem exists_carried {x : Binary64} (finite : x.isFinite = true) :
    ∃ raw back, document (.number x) .number = .ok raw ∧
      read raw .number = .ok (.number back) ∧ x.Carried back := by
  have number := Binary64.isNaN_of_isFinite finite
  refine ⟨_, x.unsignZero, document_number finite, ?_, Binary64.carried_unsignZero number⟩
  cases whole : x.integral with
  | some n =>
      rw [Option.elim_some, ← Binary64.ofInt_of_integral whole]
      rfl
  | none =>
      rw [Option.elim_none, Binary64.unsignZero_of_integral_eq_none whole]
      rfl

end Text

/-- An integer path never alters, saturates or truncates a number. By its bits the binary form
carries every other number, and the documents of JSON every other finite one: the text form refuses
the rest, for which plain JSON has null. How a reader of JSON rounds the digits of a number that is
not integral is not said here. -/
theorem numbers_exact (x : Binary64) :
    (∀ n : Int, x.integral = some n ↔
        x.isFinite = true ∧ x.value = n ∧ -2 ^ 63 ≤ n ∧ n < 2 ^ 63) ∧
      (∀ n : Int, x.integral = some n → (Binary64.ofInt n).equal x = true ∧
        Binary.document (.number x) .number = .ok (.integer n) ∧
        Text.document (.number x) .number = .ok (.integer n) ∧
        Value.toJson (.number x) = .integer n ∧
        Json.parse (Json.integer n).render = .ok (.integer n)) ∧
      (x.integral = none →
        (x.isNaN = false → Binary.document (.number x) .number = .ok (.double x)) ∧
        (x.isFinite = true → Text.document (.number x) .number = .ok (.float x) ∧
          Value.toJson (.number x) = .float x) ∧
        (x.isFinite = false → (∃ error, Text.document (.number x) .number = .error error) ∧
          Value.toJson (.number x) = .null)) ∧
      (x.isNaN = false → ∃ bytes back, Binary.encode (.number x) .number = .ok bytes ∧
        Binary.decode bytes .number = .ok (.number back) ∧ x.Carried back) ∧
      (x.isFinite = true → ∃ raw back, Text.document (.number x) .number = .ok raw ∧
        Text.read raw .number = .ok (.number back) ∧ x.Carried back) ∧
      (x.isFinite = true → ∃ back, Value.ofJson (Value.toJson (.number x)) = .number back ∧
        x.Carried back) := by
  refine ⟨fun n => Binary64.integral_eq_some_iff_value, fun n whole => ?_, fun other => ?_,
    Binary.exists_carried, Text.exists_carried, Value.exists_carried⟩
  · obtain ⟨exact, least, greatest⟩ := Binary64.integral_eq_some whole
    obtain ⟨finite, -⟩ := Binary64.toInt?_eq_some_iff.mp exact
    have number := Binary64.isNaN_of_isFinite finite
    unfold Binary64.wordLimit at least greatest
    have reads : Json.Reads (.integer n) := Json.reads_integer (by omega) (by omega)
    refine ⟨?_, ?_, ?_, ?_, (Json.parse_render reads).1 (Nat.zero_le _)⟩
    · rw [Binary64.ofInt_of_integral whole]
      exact (Binary64.carried_unsignZero number).equal
    · rw [Binary.document_number number, whole, Option.elim_some]
    · rw [Text.document_number finite, whole, Option.elim_some]
    · rw [Value.toJson_number finite, whole, Option.elim_some]
  · refine ⟨fun number => ?_, fun finite => ⟨?_, ?_⟩, fun infinite => ⟨?_, ?_⟩⟩
    · rw [Binary.document_number number, other, Option.elim_none]
    · rw [Text.document_number finite, other, Option.elim_none]
    · rw [Value.toJson_number finite, other, Option.elim_none]
    · cases made : Text.document (.number x) .number with
      | error error => exact ⟨error, rfl⟩
      | ok raw =>
          obtain ⟨finite, -⟩ := Text.writeNumber_eq_ok.mp made
          cases infinite.symm.trans finite
    · rw [Value.toJson, Value.numberToJson, other]
      exact if_neg (by simp [infinite])

/-- A half goes by its bits, and the least word as an integer. -/
theorem numbers_exact_half :
    (∃ raw back, Text.document (.number ⟨0x3FE0000000000000⟩) .number = .ok raw ∧
      Text.read raw .number = .ok (.number back) ∧
      Binary64.Carried ⟨0x3FE0000000000000⟩ back) ∧
    Binary.document (.number ⟨0xC3E0000000000000⟩) .number = .ok (.integer (-2 ^ 63)) := by
  have least : Binary64.integral ⟨0xC3E0000000000000⟩ = some (-2 ^ 63) := by
    rw [Binary64.integral_eq]
    exact congrArg _ Binary64.toInt?_neg_limit
  obtain ⟨-, -, -, -, text, -⟩ := numbers_exact ⟨0x3FE0000000000000⟩
  obtain ⟨-, whole, -⟩ := numbers_exact ⟨0xC3E0000000000000⟩
  exact ⟨text (by decide), (whole _ least).2.1⟩

/-- Infinite numbers are not integral, and no path through JSON carries them. -/
theorem not_numbers_carried_infinite :
    ¬ ∀ x : Binary64, x.isNaN = false → x.integral = none →
      (∃ bytes, Text.encode (.number x) .number = .ok bytes ∧
        Text.decode bytes .number = .ok (.number x)) ∧
      Value.toJson (.number x) = .float x := by
  intro all
  have infinite : ¬ (Binary64.isFinite ⟨0xFFF0000000000000⟩ = true) := by decide
  obtain ⟨⟨bytes, written, -⟩, -⟩ := all ⟨0xFFF0000000000000⟩ (by decide)
    (Binary64.integral_of_not_isFinite infinite)
  obtain ⟨raw, made, -⟩ := map_eq_ok.mp written
  exact infinite (Text.writeNumber_eq_ok.mp made).1

end Wire

end ScriptHost
