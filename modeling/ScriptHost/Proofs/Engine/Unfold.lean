import Mathlib.Data.List.Nodup
import Mathlib.Logic.Relation
import ScriptHost.Proofs.Engine.Enumerate

set_option autoImplicit false

/- Values that are read from a heap, whatever its tables refer to. The recursion of reading ends:
the tables above a value are different, so there are no more levels than tables. A table that is
held in two places is read in both; only one that holds itself, at any distance, is refused. -/
namespace ScriptHost.Engine

open Relation (ReflTransGen TransGen)
open Script (Datum Heap)

/-- A table has another for a value. -/
def Holds (h : Heap) (outer inner : Nat) : Prop :=
  ∃ entry ∈ (h.table outer).present, entry.2 = .table inner

/-- A table is the value itself, or is held by it at some distance. -/
def Reaches (h : Heap) (value : Datum) (id : Nat) : Prop :=
  ∃ root, value = .table root ∧ ReflTransGen (Holds h) root id

/-- A table holds itself at some distance. -/
def Cyclic (h : Heap) (id : Nat) : Prop := TransGen (Holds h) id id

section Reach

variable {h : Heap} {id : Nat} {entry : Datum × Datum}

theorem reaches_self (h : Heap) (id : Nat) : Reaches h (.table id) id := ⟨id, rfl, .refl⟩

theorem transGen_of_reaches {inner : Nat} (member : entry ∈ (h.table id).present)
    (reaches : Reaches h entry.2 inner) : TransGen (Holds h) id inner := by
  obtain ⟨root, same, path⟩ := reaches
  exact TransGen.head' ⟨entry, member, same⟩ path

/-- A table reaches what its values reach. -/
theorem Reaches.outer {inner : Nat} (member : entry ∈ (h.table id).present)
    (reaches : Reaches h entry.2 inner) : Reaches h (.table id) inner :=
  ⟨id, rfl, (transGen_of_reaches member reaches).to_reflTransGen⟩

/-- What a table reaches is the table or is reached by one of its values. -/
theorem reaches_table_iff {inner : Nat} : Reaches h (.table id) inner ↔
    inner = id ∨ ∃ entry ∈ (h.table id).present, Reaches h entry.2 inner := by
  constructor
  · rintro ⟨root, same, path⟩
    cases same
    rcases ReflTransGen.cases_head path with rfl | ⟨next, ⟨entry, member, holds⟩, rest⟩
    · exact .inl rfl
    · exact .inr ⟨entry, member, next, holds, rest⟩
  · rintro (rfl | ⟨entry, member, reaches⟩)
    · exact reaches_self h inner
    · exact reaches.outer member

theorem cyclic_iff : Cyclic h id ↔ ∃ entry ∈ (h.table id).present, Reaches h entry.2 id := by
  constructor
  · intro cyclic
    obtain ⟨next, ⟨entry, member, holds⟩, rest⟩ := TransGen.head'_iff.mp cyclic
    exact ⟨entry, member, next, holds, rest⟩
  · rintro ⟨entry, member, reaches⟩
    exact transGen_of_reaches member reaches

end Reach

/-- The recursion from a value, below some tables that it must not hold again, ends with an outcome.
Each value in a table is read below that table as well. -/
inductive Reads (h : Heap) : List Nat → Datum → Except CallError Tree → Prop
  | scalar {ancestors : List Nat} {value : Datum} (scalar : ∀ id, value ≠ .table id) :
      Reads h ancestors value (readScalar value)
  | again {ancestors : List Nat} {id : Nat} (held : id ∈ ancestors) :
      Reads h ancestors (.table id) (.error .recursiveTable)
  | table {ancestors : List Nat} {id : Nat} {reader : Datum → Except CallError Tree}
      (fresh : id ∉ ancestors)
      (values : ∀ entry ∈ (h.table id).present,
        Reads h (id :: ancestors) entry.2 (reader entry.2)) :
      Reads h ancestors (.table id) ((readEntries reader (h.table id).present).map .table)

theorem lt_size_of_present {h : Heap} {id : Nat} {entry : Datum × Datum}
    (member : entry ∈ (h.table id).present) : id < h.tables.size := by
  by_contra outside
  have nothing : h.tables[id]? = none := Array.getElem?_eq_none (Nat.le_of_not_lt outside)
  have empty : h.table id = .empty := by
    rw [Heap.table, Array.getD_eq_getD_getElem?, nothing, Option.getD_none]
  rw [empty] at member
  cases member

/-- Different numbers below a bound are no more than the bound. -/
theorem length_le_of_lt {ids : List Nat} {bound : Nat} (distinct : ids.Nodup)
    (below : ∀ id ∈ ids, id < bound) : ids.length ≤ bound := by
  have within : ids ⊆ List.range bound := fun id member => List.mem_range.mpr (below id member)
  simpa using (distinct.subperm within).length_le

/-- As many levels as there are tables beside the ancestors are enough. -/
theorem reads_readBelow {h : Heap} {levels : Nat} {ancestors : List Nat} (value : Datum)
    (distinct : ancestors.Nodup) (inside : ∀ id ∈ ancestors, id < h.tables.size)
    (enough : h.tables.size < levels + ancestors.length) :
    Reads h ancestors value (readBelow h levels ancestors value) := by
  induction levels generalizing ancestors value with
  | zero =>
      have := length_le_of_lt distinct inside
      omega
  | succ levels ih =>
      cases value with
      | table id =>
          rw [readBelow]
          split
          · rename_i held
            exact .again (List.contains_iff_mem.mp held)
          · rename_i fresh
            have fresh : id ∉ ancestors := fun held => fresh (List.contains_iff_mem.mpr held)
            refine .table fresh fun entry member => ?_
            refine ih entry.2 (List.nodup_cons.mpr ⟨fresh, distinct⟩) ?_ ?_
            · exact List.forall_mem_cons.mpr ⟨lt_size_of_present member, inside⟩
            · rw [List.length_cons]
              omega
      | _ => exact .scalar (by simp)

theorem reads_read (h : Heap) (value : Datum) : Reads h [] value (read h value) := by
  apply reads_readBelow value List.nodup_nil (List.forall_mem_nil _)
  rw [List.length_nil]
  omega

/-- A tree is the unfolding of a value: what a table holds is unfolded wherever it is held. -/
inductive Unfolds (h : Heap) : Datum → Tree → Prop
  | scalar {value : Datum} {tree : Tree} (scalar : ∀ id, value ≠ .table id)
      (found : readScalar value = .ok tree) : Unfolds h value tree
  | table {id : Nat} {key : Datum × Datum → Key} {tree : Datum × Datum → Tree}
      (keys : ∀ entry ∈ (h.table id).present, readKey entry.1 = .ok (key entry))
      (values : ∀ entry ∈ (h.table id).present, Unfolds h entry.2 (tree entry)) :
      Unfolds h (.table id) (.table ((h.table id).present.map fun entry => (key entry, tree entry)))

section Unfold

variable {h : Heap} {ancestors : List Nat} {value : Datum} {outcome : Except CallError Tree}
  {tree : Tree}

/-- Nothing that holds itself has an unfolding. -/
theorem Unfolds.not_cyclic (unfolds : Unfolds h value tree) :
    ∀ id, Reaches h value id → ¬ Cyclic h id := by
  induction unfolds with
  | scalar scalar =>
      rintro id ⟨root, same, -⟩
      exact absurd same (scalar root)
  | table keys values ih =>
      intro id reaches cyclic
      rcases reaches_table_iff.mp reaches with rfl | ⟨entry, member, inside⟩
      · obtain ⟨entry, member, back⟩ := cyclic_iff.mp cyclic
        exact ih entry member id back cyclic
      · exact ih entry member id inside cyclic

/-- What the recursion ends with is the unfolding, as long as it does not meet an ancestor. -/
theorem Unfolds.eq_of_reads (unfolds : Unfolds h value tree)
    (reads : Reads h ancestors value outcome)
    (apart : ∀ id ∈ ancestors, ¬ Reaches h value id) : outcome = .ok tree := by
  induction unfolds generalizing ancestors outcome with
  | @scalar value _ scalar found =>
      cases reads with
      | scalar => exact found
      | again | table => exact absurd rfl (scalar _)
  | @table id key tree keys values ih =>
      have acyclic := (Unfolds.table keys values).not_cyclic id (reaches_self h id)
      cases reads with
      | scalar scalar => exact absurd rfl (scalar id)
      | again held => exact absurd (reaches_self h id) (apart id held)
      | table fresh readers =>
          have trees := fun entry member => ih entry member (readers entry member) <| by
            refine List.forall_mem_cons.mpr ⟨fun back => ?_, fun other inside reaches => ?_⟩
            · exact acyclic (cyclic_iff.mpr ⟨entry, member, back⟩)
            · exact apart other inside (reaches.outer member)
          rw [readEntries_of_read keys trees]
          rfl

/-- A tree that the recursion ends with is the unfolding. -/
theorem Reads.unfolds (reads : Reads h ancestors value outcome) (done : outcome = .ok tree) :
    Unfolds h value tree := by
  induction reads generalizing tree with
  | scalar scalar => exact .scalar scalar done
  | again => cases done
  | @table ancestors id reader fresh values ih =>
      obtain ⟨entries, listed, rfl⟩ := Wire.map_eq_ok.mp done
      choose! key tree keys trees using exists_of_readEntries listed
      rw [readEntries_of_read keys trees] at listed
      cases listed
      exact .table keys fun entry member => ih entry member (trees entry member)

end Unfold

/-- A string is valid text. -/
def Spelled : Datum → Prop
  | .string bytes => ∃ text, ofUtf8? bytes = some text
  | _ => True

/-- The strings in a value, and in the keys and values of all tables that it reaches, are valid
text. -/
def AllSpelled (h : Heap) (value : Datum) : Prop :=
  Spelled value ∧ ∀ id, Reaches h value id →
    ∀ entry ∈ (h.table id).present, Spelled entry.1 ∧ Spelled entry.2

theorem exists_readKey {datum : Datum} (spelled : Spelled datum) :
    ∃ key, readKey datum = .ok key := by
  cases datum with
  | string bytes =>
      obtain ⟨text, valid⟩ := spelled
      exact ⟨.string text, by rw [readKey, valid]⟩
  | _ => exact ⟨_, rfl⟩

theorem exists_readScalar {datum : Datum} (spelled : Spelled datum) :
    ∃ tree, readScalar datum = .ok tree := by
  cases datum with
  | string bytes =>
      obtain ⟨text, valid⟩ := spelled
      exact ⟨.string text, by rw [readScalar, valid]⟩
  | _ => exact ⟨_, rfl⟩

theorem readKey_ne_recursiveTable (datum : Datum) : readKey datum ≠ .error .recursiveTable := by
  cases datum with
  | string bytes =>
      rw [readKey]
      split <;> simp
  | _ => simp [readKey]

theorem readScalar_ne_recursiveTable (datum : Datum) :
    readScalar datum ≠ .error .recursiveTable := by
  cases datum with
  | string bytes =>
      rw [readScalar]
      split <;> simp
  | _ => simp [readScalar]

/-- Entries are not read because a key or a value of one is not. -/
theorem exists_of_readEntries_error {reader : Datum → Except CallError Tree}
    {listed : List (Datum × Datum)} {e : CallError}
    (failed : readEntries reader listed = .error e) :
    ∃ entry ∈ listed, readKey entry.1 = .error e ∨ reader entry.2 = .error e := by
  induction listed with
  | nil => cases failed
  | cons entry rest ih =>
      rw [readEntries] at failed
      cases key : readKey entry.1 with
      | error other =>
          rw [key] at failed
          cases failed
          exact ⟨entry, List.mem_cons_self, .inl key⟩
      | ok name =>
          cases value : reader entry.2 with
          | error other =>
              rw [key, value] at failed
              cases failed
              exact ⟨entry, List.mem_cons_self, .inr value⟩
          | ok tree =>
              cases later : readEntries reader rest with
              | ok others => simp [key, value, later, Except.map] at failed
              | error other =>
                  simp only [key, value, later, Except.map, Except.error.injEq] at failed
                  obtain ⟨entry, member, why⟩ := ih (failed ▸ later)
                  exact ⟨entry, List.mem_cons_of_mem _ member, why⟩

section Failure

variable {h : Heap} {ancestors : List Nat} {value : Datum} {outcome : Except CallError Tree}

/-- Where reading meets a table again, the table holds itself or is an ancestor. -/
theorem Reads.exists_cyclic (reads : Reads h ancestors value outcome)
    (failed : outcome = .error .recursiveTable) :
    (∃ id, Reaches h value id ∧ Cyclic h id) ∨ ∃ id ∈ ancestors, Reaches h value id := by
  induction reads with
  | scalar => exact absurd failed (readScalar_ne_recursiveTable _)
  | @again ancestors id held => exact .inr ⟨id, held, reaches_self h id⟩
  | @table ancestors id reader fresh values ih =>
      have refused := Wire.map_eq_error.mp failed
      obtain ⟨entry, member, key | value⟩ := exists_of_readEntries_error refused
      · exact absurd key (readKey_ne_recursiveTable _)
      · rcases ih entry member value with ⟨other, reaches, cyclic⟩ | ⟨other, above, reaches⟩
        · exact .inl ⟨other, reaches.outer member, cyclic⟩
        · rcases List.mem_cons.mp above with rfl | above
          · exact .inl ⟨other, reaches_self h other, cyclic_iff.mpr ⟨entry, member, reaches⟩⟩
          · exact .inr ⟨other, above, reaches.outer member⟩

/-- Nothing but a table that is met again keeps valid text from being read. -/
theorem Reads.ok_or_recursiveTable (reads : Reads h ancestors value outcome)
    (spelled : AllSpelled h value) :
    (∃ tree, outcome = .ok tree) ∨ outcome = .error .recursiveTable := by
  induction reads with
  | scalar => exact .inl (exists_readScalar spelled.1)
  | again => exact .inr rfl
  | @table ancestors id reader fresh values ih =>
      have strings := spelled.2 id (reaches_self h id)
      have inside : ∀ entry ∈ (h.table id).present, AllSpelled h entry.2 := fun entry member =>
        ⟨(strings entry member).2, fun other reaches => spelled.2 other (reaches.outer member)⟩
      cases listed : readEntries reader (h.table id).present with
      | ok entries => exact .inl ⟨_, rfl⟩
      | error e =>
          obtain ⟨entry, member, key | value⟩ := exists_of_readEntries_error listed
          · obtain ⟨name, named⟩ := exists_readKey (strings entry member).1
            cases key.symm.trans named
          · rcases ih entry member (inside entry member) with ⟨tree, done⟩ | failed
            · cases value.symm.trans done
            · cases value.symm.trans failed
              exact .inr rfl

end Failure

/-- The recursion of reading ends whatever the heap is, and it gives a tree exactly if the value has
an unfolding, which is that tree. If all strings are valid text, a value has one exactly if it
reaches no table that holds itself; any other value is refused for that. -/
theorem read_unfolds (h : Heap) (value : Datum) :
    Reads h [] value (read h value) ∧
      (∀ tree, read h value = .ok tree ↔ Unfolds h value tree) ∧
      (AllSpelled h value →
        ((∀ id, Reaches h value id → ¬ Cyclic h id) → ∃ tree, read h value = .ok tree) ∧
        ((∃ id, Reaches h value id ∧ Cyclic h id) → read h value = .error .recursiveTable)) := by
  have reads := reads_read h value
  refine ⟨reads, fun tree => ⟨fun done => reads.unfolds done, fun unfolds => ?_⟩,
    fun spelled => ⟨fun acyclic => ?_, ?_⟩⟩
  · exact unfolds.eq_of_reads reads (List.forall_mem_nil _)
  · rcases reads.ok_or_recursiveTable spelled with done | failed
    · exact done
    · rcases reads.exists_cyclic failed with ⟨id, reaches, cyclic⟩ | ⟨id, above, -⟩
      · exact absurd cyclic (acyclic id reaches)
      · cases above
  · rintro ⟨id, reaches, cyclic⟩
    rcases reads.ok_or_recursiveTable spelled with ⟨tree, done⟩ | failed
    · exact absurd cyclic ((reads.unfolds done).not_cyclic id reaches)
    · exact failed

/-- A table that holds another twice, and one that holds itself. -/
theorem read_unfolds_shared :
    let h : Heap := ⟨#[⟨[(.text "a", .table 1), (.text "b", .table 1)], none, 0⟩,
      ⟨[(.integer 1, .bool true)], none, 0⟩, ⟨[(.text "me", .table 2)], none, 0⟩], #[], #[], 0⟩
    AllSpelled h (.table 0) ∧ (∀ id, Reaches h (.table 0) id → ¬ Cyclic h id) ∧
      (∃ tree, read h (.table 0) = .ok tree) ∧
      AllSpelled h (.table 2) ∧ (∃ id, Reaches h (.table 2) id ∧ Cyclic h id) ∧
      read h (.table 2) = .error .recursiveTable := by
  intro h
  have text (s : String) : Spelled (.text s) := ⟨s, ofUtf8?_utf8 s⟩
  have strings : ∀ id, ∀ entry ∈ (h.table id).present, Spelled entry.1 ∧ Spelled entry.2 := by
    intro id entry member
    have inside : id < 3 := lt_size_of_present member
    have listed : id = 0 ∨ id = 1 ∨ id = 2 := by omega
    rcases listed with rfl | rfl | rfl
    all_goals fin_cases member
    · exact ⟨text "a", trivial⟩
    · exact ⟨text "b", trivial⟩
    · exact ⟨trivial, trivial⟩
    · exact ⟨text "me", trivial⟩
  have spelled (id : Nat) : AllSpelled h (.table id) := ⟨trivial, fun other _ => strings other⟩
  have unfolds : Unfolds h (.table 0) (.table [(.string "a", .table [(.integer 1, .bool true)]),
      (.string "b", .table [(.integer 1, .bool true)])]) := (reads_read h _).unfolds rfl
  have itself : Cyclic h 2 :=
    cyclic_iff.mpr ⟨(.text "me", .table 2), List.mem_singleton_self _, reaches_self h 2⟩
  have cycle : ∃ id, Reaches h (.table 2) id ∧ Cyclic h id := ⟨2, reaches_self h 2, itself⟩
  exact ⟨spelled 0, unfolds.not_cyclic,
    ((read_unfolds h (.table 0)).2.2 (spelled 0)).1 unfolds.not_cyclic, spelled 2, cycle,
    ((read_unfolds h (.table 2)).2.2 (spelled 2)).2 cycle⟩

end ScriptHost.Engine
