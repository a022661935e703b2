import ScriptHost.Engine.Tree

set_option autoImplicit false

namespace ScriptHost.Engine

namespace Tree

/-- Induction on trees, with the hypothesis for the value of every entry. -/
@[induction_eliminator]
theorem inductionOn {P : Tree → Prop} (nil : P nil) (bool : ∀ b, P (bool b))
    (number : ∀ x, P (number x)) (string : ∀ s, P (string s))
    (table : ∀ entries : List (Key × Tree), (∀ entry ∈ entries, P entry.2) → P (table entries))
    (foreign : ∀ name, P (foreign name)) (tree : Tree) : P tree :=
  Tree.rec (motive_1 := P)
    (motive_2 := fun entries => ∀ entry ∈ entries, P entry.2)
    (motive_3 := fun entry => P entry.2)
    nil bool number string table foreign
    (List.forall_mem_nil _) (fun _ _ head tail => List.forall_mem_cons.mpr ⟨head, tail⟩)
    (fun _ _ ih => ih) tree

def isNil : Tree → Bool
  | nil => true
  | _ => false

end Tree

/-- Trees that a heap can hold: no value and no key inside is foreign. -/
inductive Portable : Tree → Prop
  | nil : Portable .nil
  | bool (value : Bool) : Portable (.bool value)
  | number (value : Binary64) : Portable (.number value)
  | string (value : String) : Portable (.string value)
  | table {entries : List (Key × Tree)}
      (keys : ∀ entry ∈ entries, ∀ typeName, entry.1 ≠ .foreign typeName)
      (values : ∀ entry ∈ entries, Portable entry.2) : Portable (.table entries)

/-- Trees in which no key is a float that is not a number. -/
inductive Indexed : Tree → Prop
  | scalar {tree : Tree} (scalar : ∀ entries, tree ≠ .table entries) : Indexed tree
  | table {entries : List (Key × Tree)} (keys : ∀ entry ∈ entries, entry.1.isNaN = false)
      (values : ∀ entry ∈ entries, Indexed entry.2) : Indexed (.table entries)

theorem indexed_table {entries : List (Key × Tree)} : Indexed (.table entries) ↔
    (∀ entry ∈ entries, entry.1.isNaN = false) ∧ ∀ entry ∈ entries, Indexed entry.2 := by
  constructor
  · intro indexed
    cases indexed with
    | scalar scalar => exact absurd rfl (scalar entries)
    | table keys values => exact ⟨keys, values⟩
  · rintro ⟨keys, values⟩
    exact .table keys values

/-- A key as a table keeps it. -/
def Key.settled : Key → Key
  | number value =>
      match value.integral with
      | some n => integer n
      | none => number value
  | key => key

/-- Puts a tree under a key that has a place, or behind all others; nil needs no new place. -/
def place (key : Key) (tree : Tree) : List (Key × Tree) → List (Key × Tree)
  | [] => if tree.isNil then [] else [(key, tree)]
  | (k, old) :: rest => if k = key then (k, tree) :: rest else (k, old) :: place key tree rest

/-- The entries that are there. -/
def present (entries : List (Key × Tree)) : List (Key × Tree) :=
  entries.filter fun entry => !entry.2.isNil

mutual

/-- A tree as a heap holds it. -/
def settle : Tree → Tree
  | .table entries => .table (present (settleEntries [] entries))
  | scalar => scalar

def settleEntries (placed : List (Key × Tree)) : List (Key × Tree) → List (Key × Tree)
  | [] => placed
  | (key, tree) :: rest => settleEntries (place key.settled (settle tree) placed) rest

end

theorem mem_of_mem_place {key : Key} {tree : Tree} {placed : List (Key × Tree)}
    {entry : Key × Tree} (member : entry ∈ place key tree placed) :
    entry = (key, tree) ∨ entry ∈ placed := by
  induction placed with
  | nil =>
      rw [place] at member
      split at member
      · simp at member
      · exact .inl (List.mem_singleton.mp member)
  | cons first rest ih =>
      obtain ⟨k, old⟩ := first
      rw [place] at member
      split at member
      · rename_i same
        rcases List.mem_cons.mp member with rfl | later
        · exact .inl (by rw [same])
        · exact .inr (List.mem_cons_of_mem _ later)
      · rcases List.mem_cons.mp member with rfl | later
        · exact .inr List.mem_cons_self
        · exact (ih later).imp_right (List.mem_cons_of_mem _)

/-- A key that has no place yet goes behind all others, if there is something under it. -/
theorem place_of_new {key : Key} {tree : Tree} {placed : List (Key × Tree)}
    (fresh : key ∉ placed.map Prod.fst) :
    place key tree placed = placed ++ present [(key, tree)] := by
  induction placed with
  | nil => cases nothing : tree.isNil <;> simp [place, present, nothing]
  | cons first rest ih =>
      obtain ⟨k, old⟩ := first
      rw [List.map_cons, List.mem_cons, not_or] at fresh
      rw [place, if_neg (Ne.symm fresh.1), ih fresh.2, List.cons_append]

theorem present_append (first second : List (Key × Tree)) :
    present (first ++ second) = present first ++ present second :=
  List.filter_append ..

theorem present_present (entries : List (Key × Tree)) :
    present (present entries) = present entries := by
  simp [present]

/-- Entries whose keys differ stay in order, those that are nil apart. -/
theorem settleEntries_of_distinct {placed entries : List (Key × Tree)}
    (distinct : (placed.map Prod.fst ++ entries.map fun entry => entry.1.settled).Nodup) :
    settleEntries placed entries =
      placed ++ present (entries.map fun entry => (entry.1.settled, settle entry.2)) := by
  induction entries generalizing placed with
  | nil => simp [settleEntries, present]
  | cons entry rest ih =>
      obtain ⟨key, tree⟩ := entry
      have moved : (placed.map Prod.fst ++ [key.settled] ++
          rest.map fun entry => entry.1.settled).Nodup := by simpa using distinct
      have fresh : key.settled ∉ placed.map Prod.fst := by
        have disjoint := (List.nodup_append.mp (List.nodup_append.mp moved).1).2.2
        intro member
        exact disjoint _ member _ (List.mem_singleton_self _) rfl
      rw [settleEntries, place_of_new fresh, ih, List.append_assoc, ← present_append]
      · rfl
      · refine moved.sublist (List.Sublist.append_right ?_ _)
        rw [List.map_append]
        exact List.Sublist.append_left (List.filter_sublist.map Prod.fst) _

theorem settle_table_of_distinct {entries : List (Key × Tree)}
    (distinct : (entries.map fun entry => entry.1.settled).Nodup) :
    settle (.table entries) =
      .table (present (entries.map fun entry => (entry.1.settled, settle entry.2))) := by
  rw [settle, settleEntries_of_distinct (by simpa using distinct), List.nil_append, present_present]

theorem settle_isNil (tree : Tree) : (settle tree).isNil = tree.isNil := by
  cases tree <;> rfl

theorem Key.settled_ne_foreign {key : Key} (native : ∀ typeName, key ≠ .foreign typeName) :
    ∀ typeName, key.settled ≠ .foreign typeName := by
  intro typeName
  cases key with
  | number value =>
      simp only [settled]
      split <;> simp
  | integer value => simp [settled]
  | string value => simp [settled]
  | foreign name => exact absurd rfl (native name)

/-- All that is placed comes from an entry, or was there before. -/
theorem forall_mem_settleEntries {P : Key × Tree → Prop} {placed entries : List (Key × Tree)}
    (before : ∀ entry ∈ placed, P entry)
    (each : ∀ entry ∈ entries, P (entry.1.settled, settle entry.2)) :
    ∀ entry ∈ settleEntries placed entries, P entry := by
  induction entries generalizing placed with
  | nil => exact before
  | cons first rest ih =>
      rw [List.forall_mem_cons] at each
      refine ih (fun entry member => ?_) each.2
      rcases mem_of_mem_place member with rfl | old
      · exact each.1
      · exact before entry old

theorem Portable.settle {tree : Tree} (portable : Portable tree) : Portable (settle tree) := by
  induction portable with
  | nil => exact .nil
  | bool value => exact .bool value
  | number value => exact .number value
  | string value => exact .string value
  | @table entries keys values ih =>
      have native : ∀ entry ∈ settleEntries [] entries,
          (∀ typeName, entry.1 ≠ .foreign typeName) ∧ Portable entry.2 :=
        forall_mem_settleEntries (List.forall_mem_nil _) fun entry member =>
          ⟨Key.settled_ne_foreign (keys entry member), ih entry member⟩
      exact .table (fun entry member => (native entry (List.mem_filter.mp member).1).1)
        fun entry member => (native entry (List.mem_filter.mp member).1).2

theorem Key.isNaN_settled {key : Key} (index : key.isNaN = false) : key.settled.isNaN = false := by
  cases key with
  | number value =>
      rw [settled]
      split
      · rfl
      · exact index
  | _ => rfl

theorem Indexed.settle {tree : Tree} (indexed : Indexed tree) : Indexed (settle tree) := by
  induction indexed with
  | @scalar tree scalar =>
      cases tree with
      | table entries => exact absurd rfl (scalar entries)
      | _ => exact .scalar (by simp [Engine.settle])
  | @table entries keys _ ih =>
      have each : ∀ entry ∈ settleEntries [] entries,
          entry.1.isNaN = false ∧ Indexed entry.2 :=
        forall_mem_settleEntries (List.forall_mem_nil _) fun entry member =>
          ⟨Key.isNaN_settled (keys entry member), ih entry member⟩
      exact .table (fun entry member => (each entry (List.mem_filter.mp member).1).1)
        fun entry member => (each entry (List.mem_filter.mp member).1).2

/-- A tree is the last of some entries whose keys are taken for one. -/
def IsLast {κ : Type} (as : Key → κ) (entries : List (Key × Tree)) (key : κ) (tree : Tree) : Prop :=
  ∃ before own after, entries = before ++ (own, tree) :: after ∧ as own = key ∧
    ∀ later ∈ after, as later.1 ≠ key

theorem isLast_cons {κ : Type} {as : Key → κ} {entry : Key × Tree} {rest : List (Key × Tree)}
    {key : κ} {tree : Tree} : IsLast as (entry :: rest) key tree ↔
      IsLast as rest key tree ∨
        (as entry.1 = key ∧ entry.2 = tree ∧ ∀ later ∈ rest, as later.1 ≠ key) := by
  constructor
  · rintro ⟨before, own, after, split, same, last⟩
    cases before with
    | nil =>
        cases split
        exact .inr ⟨same, rfl, last⟩
    | cons first before =>
        cases split
        exact .inl ⟨before, own, after, rfl, same, last⟩
  · rintro (⟨before, own, after, rfl, same, last⟩ | ⟨same, rfl, last⟩)
    · exact ⟨entry :: before, own, after, rfl, same, last⟩
    · exact ⟨[], entry.1, rest, rfl, same, last⟩

theorem mem_keys_place {key name : Key} {tree : Tree} {placed : List (Key × Tree)}
    (member : name ∈ (place key tree placed).map Prod.fst) :
    name = key ∨ name ∈ placed.map Prod.fst := by
  obtain ⟨entry, inside, rfl⟩ := List.mem_map.mp member
  rcases mem_of_mem_place inside with rfl | old
  · exact .inl rfl
  · exact .inr (List.mem_map_of_mem old)

theorem nodup_place {key : Key} {tree : Tree} {placed : List (Key × Tree)}
    (distinct : (placed.map Prod.fst).Nodup) : ((place key tree placed).map Prod.fst).Nodup := by
  induction placed with
  | nil =>
      rw [place]
      split <;> simp
  | cons first rest ih =>
      obtain ⟨k, old⟩ := first
      rw [List.map_cons, List.nodup_cons] at distinct
      rw [place]
      split
      · exact List.nodup_cons.mpr distinct
      · rename_i other
        refine List.nodup_cons.mpr ⟨fun member => ?_, ih distinct.2⟩
        rcases mem_keys_place member with same | old
        · exact other same
        · exact distinct.1 old

/-- Of what is there after a tree is placed, its own key has it and nothing else, and the other keys
have what they had. -/
theorem mem_place_iff {key name : Key} {tree value : Tree} {placed : List (Key × Tree)}
    (distinct : (placed.map Prod.fst).Nodup) (there : value.isNil = false) :
    (name, value) ∈ place key tree placed ↔
      (name = key ∧ value = tree) ∨ (name ≠ key ∧ (name, value) ∈ placed) := by
  induction placed with
  | nil =>
      rw [place]
      split
      · rename_i nothing
        have other : value ≠ tree := by
          rintro rfl
          rw [there] at nothing
          cases nothing
        simp [other]
      · simp
  | cons first rest ih =>
      obtain ⟨k, old⟩ := first
      rw [List.map_cons, List.nodup_cons] at distinct
      have absent : (k, value) ∉ rest := by
        intro member
        exact distinct.1 (List.mem_map.mpr ⟨_, member, rfl⟩)
      rw [place]
      split
      · grind
      · rw [List.mem_cons, ih distinct.2]
        grind

theorem nodup_settleEntries {placed entries : List (Key × Tree)}
    (distinct : (placed.map Prod.fst).Nodup) :
    ((settleEntries placed entries).map Prod.fst).Nodup := by
  induction entries generalizing placed with
  | nil => exact distinct
  | cons entry rest ih => exact ih (nodup_place distinct)

/-- What is there in the end under a key is the last that was placed under it, or has been there
from the start. -/
theorem mem_settleEntries_iff {placed entries : List (Key × Tree)} {key : Key} {value : Tree}
    (distinct : (placed.map Prod.fst).Nodup) (there : value.isNil = false) :
    (key, value) ∈ settleEntries placed entries ↔
      (∃ last, IsLast Key.settled entries key last ∧ settle last = value) ∨
        ((key, value) ∈ placed ∧ ∀ entry ∈ entries, entry.1.settled ≠ key) := by
  induction entries generalizing placed with
  | nil =>
      have none (last : Tree) : ¬ IsLast Key.settled [] key last := by
        rintro ⟨before, own, after, split, -⟩
        simp at split
      simp [settleEntries, none]
  | cons entry rest ih =>
      rw [settleEntries, ih (nodup_place distinct), mem_place_iff distinct there]
      simp only [isLast_cons, List.forall_mem_cons]
      grind

end ScriptHost.Engine
