import ScriptHost.Proofs.Engine.Cross
import ScriptHost.Proofs.Engine.Normal

set_option autoImplicit false

namespace ScriptHost.Engine

/-- A tree with the entries of any tables inside in another order. A pair is an entry with a second
value, which is the first one in another order. -/
inductive Reordered : Tree → Tree → Prop
  | refl (tree : Tree) : Reordered tree tree
  | table {pairs others : List (Key × Tree × Tree)} (order : others.Perm pairs)
      (inside : ∀ pair ∈ pairs, Reordered pair.2.1 pair.2.2) :
      Reordered (.table (pairs.map fun pair => (pair.1, pair.2.1)))
        (.table (others.map fun pair => (pair.1, pair.2.2)))

/-- No key is in a table twice. -/
inductive Distinct : Tree → Prop
  | scalar {tree : Tree} (scalar : ∀ entries, tree ≠ .table entries) : Distinct tree
  | table {entries : List (Key × Tree)} (keys : (entries.map Prod.fst).Nodup)
      (values : ∀ entry ∈ entries, Distinct entry.2) : Distinct (.table entries)

/-- In each table inside, entries whose keys have one text are raised alike. -/
inductive Unambiguous : Tree → Prop
  | scalar {tree : Tree} (scalar : ∀ entries, tree ≠ .table entries) : Unambiguous tree
  | table {entries : List (Key × Tree)} (values : ∀ entry ∈ entries, Unambiguous entry.2)
      (alike : ∀ entry ∈ entries, ∀ other ∈ entries, entry.1.text = other.1.text →
        raise entry.2 = raise other.2) : Unambiguous (.table entries)

theorem portable_table {entries : List (Key × Tree)} : Portable (.table entries) ↔
    (∀ entry ∈ entries, ∀ typeName, entry.1 ≠ .foreign typeName) ∧
      ∀ entry ∈ entries, Portable entry.2 := by
  constructor
  · intro portable
    cases portable with
    | table keys values => exact ⟨keys, values⟩
  · rintro ⟨keys, values⟩
    exact .table keys values

/-- What is said of each key and each value in a tree holds in whatever order tables list them. -/
theorem Reordered.holds {P : Tree → Prop} (K : Key → Prop) (table : ∀ entries,
      P (.table entries) ↔ (∀ entry ∈ entries, K entry.1) ∧ ∀ entry ∈ entries, P entry.2)
    {tree other : Tree} (reordered : Reordered tree other) (holds : P tree) : P other := by
  induction reordered with
  | refl => exact holds
  | @table pairs others order _ ih =>
      rw [table, List.forall_mem_map, List.forall_mem_map] at holds ⊢
      obtain ⟨keys, values⟩ := holds
      exact ⟨fun pair member => keys pair (order.mem_iff.mp member), fun pair member =>
        ih pair (order.mem_iff.mp member) (values pair (order.mem_iff.mp member))⟩

theorem Portable.reordered {tree other : Tree} (portable : Portable tree)
    (reordered : Reordered tree other) : Portable other :=
  reordered.holds (fun key => ∀ typeName, key ≠ .foreign typeName) (fun _ => portable_table)
    portable

theorem Indexed.reordered {tree other : Tree} (indexed : Indexed tree)
    (reordered : Reordered tree other) : Indexed other :=
  reordered.holds (fun key => key.isNaN = false) (fun _ => indexed_table) indexed

/-- A table is raised as the dictionary of what its entries are raised as. -/
theorem raise_table {α : Type} {entries : List α} {key : α → Key} {tree : α → Tree}
    {value : α → Value} (native : ∀ entry ∈ entries, ∀ typeName, key entry ≠ .foreign typeName)
    (raised : ∀ entry ∈ entries, raise (tree entry) = .ok (value entry)) :
    raise (.table (entries.map fun entry => (key entry, tree entry))) =
      .ok (classify (Dict.ofList (entries.map fun entry => ((key entry).text, value entry)))) := by
  rw [raise, raiseEntries_of_raise native raised]
  rfl

/-- Where nothing is ambiguous, order does not matter. -/
theorem raise_reordered {tree other : Tree} (portable : Portable tree)
    (unambiguous : Unambiguous tree) (reordered : Reordered tree other) :
    raise other = raise tree := by
  induction reordered with
  | refl => rfl
  | @table pairs others order _ ih =>
      cases unambiguous with
      | scalar scalar => exact absurd rfl (scalar _)
      | table values alike =>
          rw [portable_table] at portable
          simp only [List.forall_mem_map] at portable values alike
          obtain ⟨keys, portable⟩ := portable
          choose! value raised using fun pair member => exists_raise (portable pair member)
          have raised' : ∀ pair ∈ others, raise pair.2.2 = .ok (value pair) := by
            intro pair member
            have inside := order.mem_iff.mp member
            rw [ih pair inside (portable pair inside) (values pair inside), raised pair inside]
          have agree : Dict.Agree (pairs.map fun pair => (pair.1.text, value pair)) := by
            simp only [Dict.Agree, List.forall_mem_map]
            intro pair member other inside same
            have equal := alike pair member other inside same
            rw [raised pair member, raised other inside] at equal
            exact Except.ok.inj equal
          rw [raise_table keys raised,
            raise_table (fun pair member => keys pair (order.mem_iff.mp member)) raised',
            Dict.ofList_perm (order.symm.map _) agree]

/-- Dictionaries with the same names are classified alike only if they are the same. -/
theorem classify_injective {d e : List (String × Value)} (distinct : (Dict.keys d).Nodup)
    (names : Dict.keys d = Dict.keys e) (same : classify d = classify e) : d = e := by
  have length : d.length = e.length := by
    rw [← List.length_map Prod.fst, ← List.length_map Prod.fst]
    exact congrArg List.length names
  have of_counts {first : Nat} (counts : Counts first (Dict.keys d))
      (items : indexed first d = indexed first e) : d = e := by
    obtain ⟨ds, runs⟩ := exists_runs_of_counts counts
    obtain ⟨es, runs'⟩ := exists_runs_of_counts (names ▸ counts)
    rw [runs.indexed_eq, runs'.indexed_eq] at items
    subst items
    refine Dict.ext_of_keys distinct names fun name member => ?_
    obtain ⟨i, atLeast, less, rfl⟩ := mem_indexNames.mp (runs.perm.mem_iff.mpr member)
    obtain ⟨j, rfl⟩ := Nat.exists_eq_add_of_le atLeast
    rw [runs.get? (by omega), runs'.get? (by omega)]
  rw [classify_eq_collection, classify_eq_collection, collection, collection, ← names] at same
  split at same
  · exact of_counts (by assumption) (Value.list.inj same)
  split at same
  · exact of_counts (by assumption) (Value.list.inj same)
  · exact Value.object.inj same

/-- The last entry of a table shows in what the table is raised as. -/
theorem raise_eq_of_last {entries others : List (Key × Tree)} {entry other : Key × Tree}
    (portable : Portable (.table (entries ++ [entry])))
    (portable' : Portable (.table (others ++ [other])))
    (texts : ∀ text, text ∈ (entries ++ [entry]).map (·.1.text) ↔
      text ∈ (others ++ [other]).map (·.1.text))
    (same : entry.1.text = other.1.text)
    (raised : raise (.table (entries ++ [entry])) = raise (.table (others ++ [other]))) :
    raise entry.2 = raise other.2 := by
  obtain ⟨keys, values⟩ := portable_table.mp portable
  obtain ⟨keys', values'⟩ := portable_table.mp portable'
  choose! value each using fun entry member => exists_raise (values entry member)
  choose! value' each' using fun entry member => exists_raise (values' entry member)
  have table := raise_table keys each
  have table' := raise_table keys' each'
  rw [List.map_id'] at table table'
  rw [table, table', Except.ok.injEq] at raised
  have dictionaries := classify_injective (Dict.sorted_ofList _).nodup (by
    refine Dict.keys_eq_of_mem (Dict.sorted_ofList _) (Dict.sorted_ofList _) fun name => ?_
    rw [Dict.mem_keys_ofList, Dict.mem_keys_ofList, Dict.keys, Dict.keys, List.map_map,
      List.map_map]
    exact texts name) raised
  have found := congrArg (Dict.get? · entry.1.text) dictionaries
  simp only [Dict.get?_ofList_reverse, List.map_append, List.map_singleton, List.reverse_append,
    List.reverse_singleton, List.singleton_append, Dict.get?_cons, same, if_true,
    Option.some.injEq] at found
  rw [each entry (by simp), each' other (by simp), found]

/-- An entry whose value keeps its order. -/
def sameOrder (entry : Key × Tree) : Key × Tree × Tree :=
  (entry.1, entry.2, entry.2)

/-- Any entry of a table can be listed last, with its value in another order. -/
theorem exists_reordered_last {entries : List (Key × Tree)} {entry : Key × Tree} {value : Tree}
    (member : entry ∈ entries) (inside : Reordered entry.2 value) :
    ∃ rest, Reordered (.table entries) (.table (rest ++ [(entry.1, value)])) ∧
      ∀ text, text ∈ (rest ++ [(entry.1, value)]).map (·.1.text) ↔
        text ∈ entries.map (·.1.text) := by
  obtain ⟨before, after, rfl⟩ := List.append_of_mem member
  refine ⟨before ++ after, ?_, fun text => ?_⟩
  · have order : (before.map sameOrder ++ after.map sameOrder ++ [(entry.1, entry.2, value)]).Perm
        (before.map sameOrder ++ (entry.1, entry.2, value) :: after.map sameOrder) := by
      rw [List.append_assoc]
      exact (List.perm_append_singleton _ _).append_left _
    have reordered := Reordered.table order fun pair member => by
      simp only [List.mem_append, List.mem_cons, List.mem_map] at member
      obtain ⟨_, _, rfl⟩ | rfl | ⟨_, _, rfl⟩ := member
      · exact .refl _
      · exact inside
      · exact .refl _
    simpa [sameOrder, Function.comp_def] using reordered
  · simp only [List.map_append, List.map_cons, List.map_nil, List.mem_append, List.mem_cons,
      List.not_mem_nil, or_false]
    tauto

/-- Where something is ambiguous, order matters. -/
theorem unambiguous_of_raise_eq {tree : Tree} (portable : Portable tree)
    (same : ∀ other, Reordered tree other → raise other = raise tree) : Unambiguous tree := by
  induction portable with
  | nil | bool | number | string => exact .scalar fun _ => Tree.noConfusion
  | @table entries keys values ih =>
      have last {entry other : Key × Tree} {value value' : Tree} (member : entry ∈ entries)
          (member' : other ∈ entries) (inside : Reordered entry.2 value)
          (inside' : Reordered other.2 value') (text : entry.1.text = other.1.text) :
          raise value = raise value' := by
        obtain ⟨rest, reordered, texts⟩ := exists_reordered_last member inside
        obtain ⟨rest', reordered', texts'⟩ := exists_reordered_last member' inside'
        refine @raise_eq_of_last _ _ (entry.1, value) (other.1, value')
          ((Portable.table keys values).reordered reordered)
          ((Portable.table keys values).reordered reordered')
          (fun text => (texts text).trans (texts' text).symm) text ?_
        rw [same _ reordered, same _ reordered']
      exact .table
        (fun entry member => ih entry member fun other inside =>
          last member member inside (.refl _) rfl)
        (fun entry member other member' text => last member member' (.refl _) (.refl _) text)

/-- What a tree is raised as does not depend on the order in its tables exactly if nothing in it
is ambiguous. -/
theorem raise_reordered_iff {tree : Tree} (portable : Portable tree) :
    (∀ other, Reordered tree other → raise other = raise tree) ↔ Unambiguous tree :=
  ⟨unambiguous_of_raise_eq portable, fun unambiguous _ => raise_reordered portable unambiguous⟩

/-- Two entries for one name are no matter if they hold the same. -/
theorem raise_reordered_iff_same :
    Portable (.table [(.integer 5, .bool true), (.string "5", .bool true)]) ∧
      ∀ other, Reordered (.table [(.integer 5, .bool true), (.string "5", .bool true)]) other →
        raise other = raise (.table [(.integer 5, .bool true), (.string "5", .bool true)]) := by
  have portable : Portable (.table [(.integer 5, .bool true), (.string "5", .bool true)]) :=
    .table (by simp) (by simpa using .bool true)
  have bool : Unambiguous (.bool true) := .scalar fun _ => Tree.noConfusion
  exact ⟨portable, (raise_reordered_iff portable).mpr (.table (by simpa using bool) (by simp))⟩

/-- The number five and the text `5`. -/
theorem raise_depends_on_order :
    ¬ ∀ tree other : Tree, Portable tree → Distinct tree → Reordered tree other →
      raise other = raise tree := by
  intro claim
  have bool (value : Bool) : Distinct (.bool value) := .scalar fun _ => Tree.noConfusion
  have same := claim (.table [(.integer 5, .bool true), (.string "5", .bool false)])
    (.table [(.string "5", .bool false), (.integer 5, .bool true)])
    (.table (by simp) (by simpa using ⟨.bool _, .bool _⟩))
    (.table (by simp) (by simpa using ⟨bool _, bool _⟩))
    (@Reordered.table
      [(.integer 5, .bool true, .bool true), (.string "5", .bool false, .bool false)] _
      (.swap _ _ _) (by simpa using ⟨.refl _, .refl _⟩))
  have last : raise (.table [(.integer 5, .bool true), (.string "5", .bool false)]) =
      .ok (.object [("5", .bool false)]) := rfl
  have last' : raise (.table [(.string "5", .bool false), (.integer 5, .bool true)]) =
      .ok (.object [("5", .bool true)]) := rfl
  rw [last, last'] at same
  simp at same

end ScriptHost.Engine
