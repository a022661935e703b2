import ScriptHost.Proofs.Engine.Reorder

set_option autoImplicit false

namespace ScriptHost.Engine

/-- Why there is no value under a key. -/
def Key.refusals : Key → List CallError
  | .foreign typeName => [.badTableIndex typeName]
  | _ => []

namespace Tree

mutual

/-- Why a tree cannot be raised, for all that is foreign inside, in the order of entries; the key of
an entry comes before its value. -/
def refusals : Tree → List CallError
  | .foreign typeName => [.unhandledReturnType typeName]
  | .table entries => refusalsOfEntries entries
  | _ => []

def refusalsOfEntries : List (Key × Tree) → List CallError
  | [] => []
  | (key, tree) :: rest => key.refusals ++ (tree.refusals ++ refusalsOfEntries rest)

end

theorem refusalsOfEntries_eq (entries : List (Key × Tree)) :
    refusalsOfEntries entries =
      entries.flatMap fun entry => entry.1.refusals ++ entry.2.refusals := by
  induction entries with
  | nil => rfl
  | cons entry rest ih => rw [refusalsOfEntries, ih, List.flatMap_cons, List.append_assoc]

end Tree

theorem Key.refusals_eq_nil_iff {key : Key} :
    key.refusals = [] ↔ ∀ typeName, key ≠ .foreign typeName := by
  cases key <;> simp [refusals]

theorem portable_iff {tree : Tree} : Portable tree ↔ tree.refusals = [] := by
  induction tree with
  | nil => exact iff_of_true .nil rfl
  | bool b => exact iff_of_true (.bool b) rfl
  | number x => exact iff_of_true (.number x) rfl
  | string s => exact iff_of_true (.string s) rfl
  | foreign name =>
      refine iff_of_false ?_ (List.cons_ne_nil _ _)
      intro portable
      cases portable
  | table entries ih =>
      rw [portable_table, Tree.refusals, Tree.refusalsOfEntries_eq, List.flatMap_eq_nil_iff]
      simp only [List.append_eq_nil_iff, Key.refusals_eq_nil_iff]
      constructor
      · rintro ⟨keys, values⟩ entry member
        exact ⟨keys entry member, (ih entry member).mp (values entry member)⟩
      · intro each
        exact ⟨fun entry member => (each entry member).1,
          fun entry member => (ih entry member).mpr (each entry member).2⟩

theorem exists_raise_of_refusals {tree : Tree} (none : tree.refusals = []) :
    ∃ value, raise tree = .ok value :=
  exists_raise (portable_iff.mpr none)

/-- Entries before the first foreign key or value are raised, and those behind it are not looked
at. -/
theorem raiseEntries_of_refusals {entries : List (Key × Tree)} {e : CallError}
    (refused : ∀ entry ∈ entries, entry.2.refusals.head? = some e → raise entry.2 = .error e)
    (first : (Tree.refusalsOfEntries entries).head? = some e) (d : List (String × Value)) :
    raiseEntries d entries = .error e := by
  induction entries generalizing d with
  | nil => cases first
  | cons entry rest ih =>
      obtain ⟨key, tree⟩ := entry
      rw [List.forall_mem_cons] at refused
      rw [Tree.refusalsOfEntries] at first
      by_cases native : ∀ typeName, key ≠ .foreign typeName
      · rw [Key.refusals_eq_nil_iff.mpr native, List.nil_append] at first
        cases inside : tree.refusals with
        | nil =>
            obtain ⟨value, raised⟩ := exists_raise_of_refusals inside
            rw [inside, List.nil_append] at first
            rw [raiseEntries, name_eq_text native, raised]
            exact ih refused.2 first _
        | cons other others =>
            have here : tree.refusals.head? = some e := by
              rw [inside] at first ⊢
              exact first
            rw [raiseEntries, name_eq_text native, refused.1 here]
      · obtain ⟨typeName, rfl⟩ : ∃ typeName, key = .foreign typeName := by simpa using native
        cases first
        rfl

theorem raise_of_refusals {tree : Tree} {e : CallError} (first : tree.refusals.head? = some e) :
    raise tree = .error e := by
  induction tree with
  | table entries ih =>
      rw [raise, raiseEntries_of_refusals ih first]
      rfl
  | foreign name =>
      cases first
      rfl
  | _ => cases first

theorem raise_eq_error_iff {tree : Tree} {e : CallError} :
    raise tree = .error e ↔ tree.refusals.head? = some e := by
  refine ⟨fun failed => ?_, raise_of_refusals⟩
  cases inside : tree.refusals with
  | nil =>
      obtain ⟨value, raised⟩ := exists_raise_of_refusals inside
      cases failed.symm.trans raised
  | cons other others =>
      have refused : raise tree = .error other := raise_of_refusals (by rw [inside]; rfl)
      cases failed.symm.trans refused
      rfl

theorem portable_of_raise {tree : Tree} {value : Value} (raised : raise tree = .ok value) :
    Portable tree := by
  rw [portable_iff, ← List.head?_eq_none_iff]
  cases first : tree.refusals.head? with
  | none => rfl
  | some e => cases raised.symm.trans (raise_of_refusals first)

section Table

variable {entries : List (Key × Tree)}

theorem name_eq_ok_iff {key : Key} (native : ∀ typeName, key ≠ .foreign typeName) {name : String} :
    key.name = .ok name ↔ key.text = name := by
  rw [name_eq_text native, Except.ok.injEq]

/-- A dictionary of entries under their names: under each name stands what the last entry with it is
raised as. -/
def Collects (entries : List (Key × Tree)) (d : List (String × Value)) : Prop :=
  Dict.Sorted d ∧ ∀ name value, Dict.get? d name = some value ↔
    ∃ last, IsLast Key.name entries (.ok name) last ∧ raise last = .ok value

theorem exists_collects {result : Value} (raised : raise (.table entries) = .ok result) :
    ∃ d, Collects entries d ∧ result = classify d := by
  obtain ⟨native, portable⟩ := portable_table.mp (portable_of_raise raised)
  choose! value each using fun entry member => exists_raise (portable entry member)
  have table := raise_table native each
  rw [List.map_id', raised, Except.ok.injEq] at table
  refine ⟨_, ⟨Dict.sorted_ofList _, fun name held => ?_⟩, table⟩
  rw [Dict.get?_ofList_eq_some_iff_last]
  constructor
  · rintro ⟨before, after, split, last⟩
    obtain ⟨front, rest, rfl, rfl, behind⟩ := List.map_eq_append_iff.mp split
    obtain ⟨entry, back, rfl, same, rfl⟩ := List.map_eq_cons_iff.mp behind
    obtain ⟨rfl, rfl⟩ := Prod.ext_iff.mp same
    have here : entry ∈ front ++ entry :: back := by simp
    refine ⟨entry.2, ⟨front, entry.1, back, rfl, name_eq_text (native entry here), ?_⟩,
      each entry here⟩
    intro later member
    rw [Ne, name_eq_ok_iff (native later (by simp [member]))]
    exact last _ (List.mem_map_of_mem member)
  · rintro ⟨tree, ⟨front, own, back, rfl, named, last⟩, held'⟩
    have here : (own, tree) ∈ front ++ (own, tree) :: back := by simp
    rw [each _ here, Except.ok.injEq] at held'
    rw [name_eq_ok_iff (native _ here)] at named
    refine ⟨_, _, by rw [List.map_append, List.map_cons, held', named], ?_⟩
    rw [List.forall_mem_map]
    intro later member
    have other := last later member
    rwa [Ne, name_eq_ok_iff (native later (by simp [member]))] at other

/-- The items of a list are the values of its dictionary. -/
theorem Runs.perm_values {first : Nat} {d : List (String × Value)} {items : List Value}
    (runs : Runs first d items) : items.Perm (d.map Prod.snd) := by
  have distinct : (Dict.keys d).Nodup := runs.perm.nodup (nodup_indexNames first d.length)
  have values : (Dict.keys d).filterMap (Dict.get? d) = d.map Prod.snd := by
    rw [Dict.keys, List.filterMap_map, ← List.filterMap_eq_map]
    apply List.filterMap_congr
    intro entry member
    exact (Dict.get?_eq_some_iff distinct).mpr member
  rw [← values, ← runs.indexed_eq]
  exact runs.perm.filterMap (Dict.get? d)

/-- A dictionary as what a table is raised as: the list of all its values in the order of their
numbers, if its names count from zero or from one, and else an object. -/
def Classified (d : List (String × Value)) (value : Value) : Prop :=
  (∃ first ≤ 1, Counts first (Dict.keys d) ∧
    ∃ items, value = .list items ∧ items.length = d.length ∧ items.Perm (d.map Prod.snd) ∧
      ∀ i < d.length, items[i]? = Dict.get? d (toString (first + i))) ∨
  ((∀ first ≤ 1, ¬ Counts first (Dict.keys d)) ∧ value = .object d)

theorem classified_classify (d : List (String × Value)) : Classified d (classify d) := by
  by_cases counted : ∃ first ≤ 1, Counts first (Dict.keys d)
  · obtain ⟨first, start, counts⟩ := counted
    obtain ⟨items, runs⟩ := exists_runs_of_counts counts
    exact .inl ⟨first, start, counts, items, classify_of_runs start runs, runs.length,
      runs.perm_values, fun i inside => (runs.get? inside).symm⟩
  · have uncounted : ∀ first ≤ 1, ¬ Counts first (Dict.keys d) :=
      fun first start counts => counted ⟨first, start, counts⟩
    refine .inr ⟨uncounted, ?_⟩
    rw [classify_eq_collection, collection, if_neg (uncounted 0 (Nat.zero_le 1)),
      if_neg (uncounted 1 (Nat.le_refl 1))]

end Table

/-- Exactly a tree with something foreign inside cannot be raised; the first such key or value is
the reason. A table is raised by the names of its entries, of which the last counts. -/
theorem raise_classified (tree : Tree) :
    ((∃ value, raise tree = .ok value) ↔ Portable tree) ∧
      (∀ e, raise tree = .error e ↔ tree.refusals.head? = some e) ∧
      ∀ entries value, tree = .table entries → raise tree = .ok value →
        ∃ d, Collects entries d ∧ Classified d value := by
  refine ⟨⟨fun ⟨value, raised⟩ => portable_of_raise raised, exists_raise⟩,
    fun e => raise_eq_error_iff, ?_⟩
  rintro entries value rfl raised
  obtain ⟨d, collects, rfl⟩ := exists_collects raised
  exact ⟨d, collects, classified_classify d⟩

/-- A table with the name of its first item twice. -/
theorem raise_classified_renamed :
    let entries := [(.string "1", .bool false), (.integer 2, .string "b"), (.integer 1, .bool true)]
    raise (.table entries) = .ok (.list [.bool true, .string "b"]) ∧
      ∃ d, Collects entries d ∧ Classified d (.list [.bool true, .string "b"]) := by
  intro entries
  have raised : raise (.table entries) = .ok (.list [.bool true, .string "b"]) := rfl
  exact ⟨raised, (raise_classified (.table entries)).2.2 entries _ rfl raised⟩

end ScriptHost.Engine
