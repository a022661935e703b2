import ScriptHost.Proofs.Engine.Enumerate
import ScriptHost.Proofs.Engine.Raise

set_option autoImplicit false

namespace ScriptHost.Engine

open Script (Datum Heap Machine.start)

/-- In no table inside is a value nil, a key there twice, or a number a key that is equal to an
integer. -/
inductive Settled : Tree → Prop
  | scalar {tree : Tree} (scalar : ∀ entries, tree ≠ .table entries) : Settled tree
  | table {entries : List (Key × Tree)} (filled : ∀ entry ∈ entries, entry.2.isNil = false)
      (distinct : (entries.map fun entry => entry.1.settled).Nodup)
      (numbers : ∀ entry ∈ entries, ∀ x, entry.1 = .number x → x.integral = none)
      (values : ∀ entry ∈ entries, Settled entry.2) : Settled (.table entries)

theorem settled_table {entries : List (Key × Tree)} : Settled (.table entries) ↔
    (∀ entry ∈ entries, entry.2.isNil = false) ∧ (entries.map fun entry => entry.1.settled).Nodup ∧
      (∀ entry ∈ entries, ∀ x, entry.1 = .number x → x.integral = none) ∧
        ∀ entry ∈ entries, Settled entry.2 := by
  constructor
  · intro settled
    cases settled with
    | scalar scalar => exact absurd rfl (scalar entries)
    | table filled distinct numbers values => exact ⟨filled, distinct, numbers, values⟩
  · rintro ⟨filled, distinct, numbers, values⟩
    exact .table filled distinct numbers values

theorem Key.settled_eq_self_iff {key : Key} :
    key.settled = key ↔ ∀ x, key = .number x → x.integral = none := by
  cases key with
  | number x => cases whole : x.integral <;> simp [settled, whole]
  | _ => simp [settled]

theorem Key.settled_settled (key : Key) : key.settled.settled = key.settled := by
  cases key with
  | number x => cases whole : x.integral <;> simp [settled, whole]
  | _ => rfl

theorem Settled.settle_eq {tree : Tree} (settled : Settled tree) : settle tree = tree := by
  induction settled with
  | @scalar tree scalar =>
      cases tree with
      | table entries => exact absurd rfl (scalar entries)
      | _ => rfl
  | @table entries filled distinct numbers _ ih =>
      have same : (entries.map fun entry => (entry.1.settled, settle entry.2)) = entries := by
        refine (List.map_congr_left fun entry member => ?_).trans (List.map_id entries)
        exact Prod.ext (Key.settled_eq_self_iff.mpr (numbers entry member)) (ih entry member)
      have all : present entries = entries :=
        List.filter_eq_self.mpr fun entry member => by rw [filled entry member]; rfl
      rw [settle_table_of_distinct distinct, same, all]

theorem nodup_left (entries : List (Key × Tree)) :
    ((present (settleEntries [] entries)).map Prod.fst).Nodup := by
  have placed : ((settleEntries [] entries).map Prod.fst).Nodup := by
    apply nodup_settleEntries
    exact List.nodup_nil
  exact placed.sublist (List.filter_sublist.map Prod.fst)

theorem settled_settle (tree : Tree) : Settled (settle tree) := by
  induction tree with
  | table entries ih =>
      let Kept (entry : Key × Tree) : Prop := entry.1.settled = entry.1 ∧ Settled entry.2
      have kept : ∀ entry ∈ settleEntries [] entries, Kept entry :=
        forall_mem_settleEntries (List.forall_mem_nil _) fun entry member =>
          ⟨entry.1.settled_settled, ih entry member⟩
      have inside : ∀ entry ∈ present (settleEntries [] entries), Kept entry :=
        fun entry member => kept entry (List.mem_filter.mp member).1
      refine .table (fun entry member => ?_) ?_
        (fun entry member => Key.settled_eq_self_iff.mp (inside entry member).1)
        fun entry member => (inside entry member).2
      · simpa using (List.mem_filter.mp member).2
      · rw [List.map_congr_left fun entry member => (inside entry member).1]
        exact nodup_left entries
  | _ => exact .scalar (by simp [settle])

/-- What is left of a table when its entries are written in order: under each key that has something
in the end, the last that was written under it. -/
def Leaves (entries left : List (Key × Tree)) : Prop :=
  (left.map Prod.fst).Nodup ∧ ∀ key value, (key, value) ∈ left ↔
    value.isNil = false ∧ ∃ last, IsLast Key.settled entries key last ∧ settle last = value

theorem exists_leaves (entries : List (Key × Tree)) :
    ∃ left, settle (.table entries) = .table left ∧ Leaves entries left := by
  refine ⟨_, rfl, nodup_left entries, fun key value => ?_⟩
  rw [present, List.mem_filter, and_comm, Bool.not_eq_true']
  refine and_congr_right fun there => ?_
  rw [mem_settleEntries_iff (by simp) there]
  simp

theorem Reordered.isNil_eq {tree other : Tree} (reordered : Reordered tree other) :
    other.isNil = tree.isNil := by
  cases reordered <;> rfl

/-- The order of entries does not matter for whether a tree stays as it is. -/
theorem Reordered.settled_iff {tree other : Tree} (reordered : Reordered tree other) :
    Settled other ↔ Settled tree := by
  induction reordered with
  | refl => rfl
  | @table pairs others order inside ih =>
      simp only [settled_table, List.forall_mem_map, List.map_map, order.mem_iff]
      refine and_congr (forall₂_congr fun pair member => ?_) (and_congr ?_ (and_congr_right' ?_))
      · rw [(inside pair member).isNil_eq]
      · exact (order.map _).nodup_iff
      · exact forall₂_congr ih

/-- A tree goes into a heap, and what comes out is as expected, in whatever order the tables list
their entries then. -/
def Returns (h : Heap) (tree : Tree) (Expected : Tree → Prop) : Prop :=
  ∃ datum h', push h tree = .ok (datum, h') ∧ ∀ enumerated, Relisted h' enumerated →
    ∃ back, read enumerated datum = .ok back ∧ Expected back

theorem Returns.mono {h : Heap} {tree : Tree} {Expected Known : Tree → Prop}
    (returns : Returns h tree Known) (weaker : ∀ back, Known back → Expected back) :
    Returns h tree Expected := by
  obtain ⟨datum, h', pushed, all⟩ := returns
  refine ⟨datum, h', pushed, fun enumerated relisted => ?_⟩
  obtain ⟨back, found, known⟩ := all enumerated relisted
  exact ⟨back, found, weaker back known⟩

theorem returns_settle {tree : Tree} (portable : Portable tree) (indexed : Indexed tree)
    (h : Heap) : Returns h tree (Reordered (settle tree)) := by
  obtain ⟨datum, h', pushed⟩ := exists_push portable indexed h
  exact ⟨datum, h', pushed, fun enumerated relisted => read_relisted relisted (read_push pushed)⟩

/-- Entries go into a table only if no key is foreign, and the value of each goes into a heap. -/
theorem forall_of_pushEntries {entries : List (Key × Tree)} {id : Nat} {h h' : Heap}
    (pushed : pushEntries id h entries = .ok h') : ∀ entry ∈ entries,
      (∀ typeName, entry.1 ≠ .foreign typeName) ∧
        ∃ before datum after, push before entry.2 = .ok (datum, after) := by
  induction entries generalizing h with
  | nil => exact List.forall_mem_nil _
  | cons entry rest ih =>
      obtain ⟨key, tree⟩ := entry
      rw [pushEntries] at pushed
      cases found : key.toDatum with
      | error e => simp [found] at pushed
      | ok datum =>
          cases first : push h tree with
          | error e => simp [found, first] at pushed
          | ok both =>
              simp only [found, first] at pushed
              split at pushed
              · cases pushed
              refine List.forall_mem_cons.mpr ⟨⟨?_, h, both.1, both.2, first⟩, ih pushed⟩
              rintro typeName rfl
              cases found

theorem portable_of_push {tree : Tree} {h h' : Heap} {datum : Datum}
    (pushed : push h tree = .ok (datum, h')) : Portable tree := by
  induction tree generalizing h h' datum with
  | nil => exact .nil
  | bool b => exact .bool b
  | number x => exact .number x
  | string s => exact .string s
  | foreign name => cases pushed
  | table entries ih =>
      rw [push, Wire.map_eq_ok] at pushed
      obtain ⟨last, filled, -⟩ := pushed
      have each := forall_of_pushEntries filled
      refine .table (fun entry member => (each entry member).1) fun entry member => ?_
      obtain ⟨before, inner, after, inside⟩ := (each entry member).2
      exact ih entry member inside

theorem push_eq_error_iff {tree : Tree} (indexed : Indexed tree) {h : Heap} :
    (∃ e, push h tree = .error e) ↔ ¬ Portable tree := by
  constructor
  · rintro ⟨e, failed⟩ portable
    obtain ⟨datum, h', pushed⟩ := exists_push portable indexed h
    cases failed.symm.trans pushed
  · intro foreign
    cases pushed : push h tree with
    | error e => exact ⟨e, rfl⟩
    | ok both => exact absurd (portable_of_push pushed) foreign

/-- Of trees whose keys are numbers where they are floats, exactly one with something foreign inside
cannot go into a heap. Any other comes out with each table as its entries leave it, and does not
change any more; it is the same as before exactly if it is settled. -/
theorem returns_settled {tree : Tree} (indexed : Indexed tree) (h : Heap) :
    ((∃ e, push h tree = .error e) ↔ ¬ Portable tree) ∧
      (Portable tree → Returns h tree fun back =>
        Reordered (settle tree) back ∧ (∀ h, Returns h back (Reordered back)) ∧
          (Reordered tree back ↔ Settled tree)) ∧
      ∀ entries, tree = .table entries →
        ∃ left, settle tree = .table left ∧ Leaves entries left := by
  refine ⟨push_eq_error_iff indexed, fun portable => ?_, ?_⟩
  · refine (returns_settle portable indexed h).mono fun back reordered => ?_
    have settled : Settled back := reordered.settled_iff.mpr (settled_settle tree)
    refine ⟨reordered, fun h => ?_, fun same => same.settled_iff.mp settled, fun unchanged => ?_⟩
    · have again := returns_settle (portable.settle.reordered reordered)
        (indexed.settle.reordered reordered) h
      rwa [settled.settle_eq] at again
    · rwa [unchanged.settle_eq] at reordered
  · rintro entries rfl
    exact exists_leaves entries

/-- The number one is written over by the integer, and nil leaves nothing. -/
theorem returns_settled_overwritten :
    let tree := Tree.table [(.number ⟨0x3FF0000000000000⟩, .bool false), (.string "a", .nil),
      (.integer 1, .table [(.integer 1, .nil)])]
    Indexed tree ∧ Portable tree ∧ settle tree = .table [(.integer 1, .table [])] ∧
      Returns Machine.start tree fun back =>
        Reordered (settle tree) back ∧ (∀ h, Returns h back (Reordered back)) ∧
          (Reordered tree back ↔ Settled tree) := by
  intro tree
  have portable : Portable tree := by
    rw [portable_iff]
    rfl
  have indexed : Indexed tree := by
    refine .table (by decide) ?_
    simp only [List.forall_mem_cons]
    refine ⟨.scalar (by simp), .scalar (by simp), .table (by decide) ?_, List.forall_mem_nil _⟩
    exact List.forall_mem_singleton.mpr (.scalar (by simp))
  have one : Binary64.integral ⟨0x3FF0000000000000⟩ = some 1 := by decide +kernel
  have left : settle tree = .table [(.integer 1, .table [])] := by
    simp [tree, settle, settleEntries, Key.settled, one, place, present, Tree.isNil]
  exact ⟨indexed, portable, left, (returns_settled indexed Machine.start).2.1 portable⟩

end ScriptHost.Engine
