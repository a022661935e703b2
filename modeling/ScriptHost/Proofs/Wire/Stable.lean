import Mathlib.Tactic.Choose
import ScriptHost.Proofs.MsgPack.Extent
import ScriptHost.Proofs.Value.Stable
import ScriptHost.Proofs.Wire.RoundTrip
import ScriptHost.Wire

set_option autoImplicit false

namespace ScriptHost.Wire.Binary

open Value (Stable)

theorem document_congr {value other : Value} (typed : value.ty ≠ .dynamic)
    (types : other.ty = value.ty) (written : ∀ ty, write other ty = write value ty) (ty : Ty) :
    document other ty = document value ty := by
  by_cases untyped : ty = .dynamic
  · rw [untyped, document_dynamic_of_typed typed, document_dynamic_of_typed (types ▸ typed),
      types, written]
  · rw [document_of_typed _ untyped, document_of_typed _ untyped, written]

theorem write_own {levels : Nat} {value : Value} (stable : Stable levels value) :
    ∀ ty, write value.own ty = write value ty := by
  induction stable with
  | bool | string => exact fun ty => rfl
  | @number levels x real =>
      intro ty
      show write (.number x.unsignZero) ty = write (.number x) ty
      rw [write, write, writeNumber_unsignZero]
  | @list levels items nonempty shared each ih =>
      intro ty
      have same : writers (items.map Value.own) = writers items := by
        rw [writers_eq, writers_eq, List.map_map]
        refine List.map_congr_left fun item member => funext fun ty => ?_
        have stable := each item member
        exact document_congr stable.typed stable.ty_own (ih item member) ty
      rw [Stable.own_items (.list nonempty shared each), write, write, same]
  | @object levels entries sorted named each ih =>
      intro ty
      have same : entryWriters (entries.map fun entry => (entry.1, entry.2.own)) =
          entryWriters entries := by
        rw [entryWriters_eq, entryWriters_eq, List.map_map]
        refine List.map_congr_left fun entry member => ?_
        have stable := each entry member
        exact congrArg (entry.1, ·)
          (funext (document_congr stable.typed stable.ty_own (ih entry member)))
      rw [Stable.own_entries (.object sorted named each), write, write, same]

theorem document_own {levels : Nat} {value : Value} (stable : Stable levels value) (ty : Ty) :
    document value.own ty = document value ty :=
  document_congr stable.typed stable.ty_own (write_own stable) ty

theorem exists_write_number (levels : Nat) {x : Binary64} (real : x.isNaN = false) :
    ∃ raw, write (.number x) .number = .ok raw ∧ raw.Compact levels := by
  refine ⟨_, write_number_eq_ok.mpr ⟨rfl, real, rfl⟩, ?_⟩
  cases x.integral with
  | some n => exact MsgPack.compact_of_scalar levels rfl (by simp)
  | none => exact MsgPack.compact_of_scalar levels rfl (by simp)

theorem compact_mapDocument {levels : Nat} {entries : List (String × MsgPack)}
    (each : ∀ entry ∈ entries, entry.2.Compact levels) :
    (mapDocument entries).Compact (levels + 1) := by
  refine MsgPack.compact_map fun pair member => ?_
  obtain ⟨entry, inside, rfl⟩ := List.mem_map.mp member
  have name : (MsgPack.ofText entry.1).Compact levels :=
    MsgPack.compact_of_scalar levels rfl (by simp [MsgPack.ofText])
  exact ⟨name, each entry inside⟩

/-- A stable value can be written with its own type. -/
theorem exists_write {levels : Nat} {value : Value} (stable : Stable levels value) :
    ∃ raw, write value value.ty = .ok raw ∧ raw.Compact levels := by
  induction stable with
  | bool levels b => exact ⟨.bool b, rfl, MsgPack.compact_of_scalar levels rfl (by simp)⟩
  | string levels text =>
      exact ⟨.ofText text, rfl, MsgPack.compact_of_scalar levels rfl (by simp [MsgPack.ofText])⟩
  | number levels real => exact exists_write_number levels real
  | @list levels items nonempty shared each ih =>
      obtain ⟨element, typed, rigid, same⟩ :=
        Value.ty_list_of_rigid nonempty shared fun item member => (each item member).rigid
      have known : element ≠ .dynamic := (Ty.rigid_iff.mp rigid).1
      choose! raw written compact using ih
      have results : List.zipWith document items (List.replicate items.length element) =
          (items.map raw).map .ok := by
        rw [zipWith_replicate, List.map_map]
        refine List.map_congr_left fun item member => ?_
        have done := written item member
        rw [same item member] at done
        rw [document_of_typed item known, done]
        rfl
      refine ⟨.array (items.map raw), ?_, MsgPack.compact_array (List.forall_mem_map.mpr compact)⟩
      rw [typed, write_of_items? _ rfl]
      exact writeItems_eq_ok.mpr ⟨_, rfl, _, results, rfl⟩
  | @object levels entries sorted named each ih =>
      choose! raw written compact using ih
      have results : ((entries.map fun entry => (entry.1, entry.2.ty)).map fun field =>
          (field.1, document (Value.entry entries field.1) field.2)) =
            (entries.map fun entry => (entry.1, raw entry)).map fun entry =>
              (entry.1, .ok entry.2) := by
        rw [List.map_map, List.map_map]
        refine List.map_congr_left fun entry member => ?_
        simp only [Function.comp_apply, entry_of_mem sorted member]
        rw [document_of_typed _ (each entry member).typed, written entry member]
      refine ⟨mapDocument (entries.map fun entry => (entry.1, raw entry)), ?_, ?_⟩
      · rw [write_of_entries? _ rfl]
        exact (writeEntries_eq_ok document_null sorted).mpr
          ⟨_, Value.entryTypes?_own entries, _, results, rfl⟩
      · exact compact_mapDocument (List.forall_mem_map.mpr compact)

/-- A stable value is written under a dynamic type as its own type and itself. -/
theorem exists_document {levels : Nat} {value : Value} (stable : Stable levels value) :
    ∃ inner, inner.Compact levels ∧
      document value .dynamic = .ok (.array [.binary value.ty.toBytes, inner]) := by
  obtain ⟨inner, written, compact⟩ := exists_write stable
  exact ⟨inner, compact, by rw [document_dynamic_of_typed stable.typed, written]; rfl⟩

theorem legible_of_compact {levels : Nat} {inner : MsgPack} (compact : inner.Compact levels)
    {ty : Ty} (ordered : ty.Ordered) (shallow : ty.toJson.depth ≤ Json.depthLimit) :
    (MsgPack.array [.binary ty.toBytes, inner]).Legible := by
  apply MsgPack.legible_pair
  · exact MsgPack.isLegible_toBytes ordered shallow
  · exact MsgPack.legible_of_textual compact.textual

/-- What is written of a value with at most 63 containers nested is within the limits of its readers
on nesting, and is read back as it is under its own type. -/
theorem decode_encode_stable {value : Value} (stable : Stable 63 value) {bytes : List UInt8}
    (written : encode value .dynamic = .ok bytes)
    (sized : ∀ raw, document value .dynamic = .ok raw → raw.Sized) :
    decode bytes .dynamic = .ok value.own := by
  obtain ⟨inner, compact, made⟩ := exists_document stable
  rw [encode, made] at written
  cases written
  have depth := stable.depth_le
  have legible := legible_of_compact compact (Value.ordered_ty stable.ordered)
    (show value.ty.toJson.depth ≤ 127 by omega)
  have nesting := compact.nesting
  have shallow : (MsgPack.array [.binary value.ty.toBytes, inner]).nesting ≤ 1024 := by
    simp only [MsgPack.nesting, MsgPack.nestingOfItems]
    omega
  have back :=
    decode_written stable.ordered Value.ordered_dynamic made (sized _ made) legible shallow
  rwa [Value.reshaped_dynamic stable.typed] at back

end ScriptHost.Wire.Binary
